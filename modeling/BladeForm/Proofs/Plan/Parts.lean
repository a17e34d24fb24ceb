import BladeForm.Proofs.Plan.Creation

/-!
What a plan is made of. A resource and a stub are the text of one file each, a resource keeps the
rules of its fields, and all else in a plan is computed from these two, the settings and the
configuration.
-/
namespace BladeForm

namespace Resource

/-- The rules of a resource: names and collections are identifiers, and names are all different. -/
structure IsSound (fields : List Field) : Prop where
  names : ∀ f ∈ fields, Name.isIdentifier f.name = true
  collections : ∀ f ∈ fields, ∀ r ∈ f.relation, Name.isIdentifier r.collectionName = true
  distinct : (fields.map (·.name)).Nodup

theorem fieldFault?_none_iff {earlier : List String} {f : Field} : fieldFault? earlier f = none ↔
    Name.isIdentifier f.name = true ∧ f.name ∉ earlier ∧
      ∀ r ∈ f.relation, Name.isIdentifier r.collectionName = true := by
  rw [fieldFault?]
  by_cases name : Name.isIdentifier f.name = true
  · by_cases known : f.name ∈ earlier
    · simp [name, known]
    · cases f.relation with
      | none => simp [name, known]
      | some r => simp [name, known]
  · simp [name]

theorem fault?_none_iff {earlier : List String} {fields : List Field} :
    fault? earlier fields = none ↔ IsSound fields ∧ ∀ f ∈ fields, f.name ∉ earlier := by
  induction fields generalizing earlier with
  | nil => simpa [fault?] using IsSound.mk (by simp) (by simp) (by simp)
  | cons f fs ih =>
    have first : fault? earlier (f :: fs) = none ↔
        fieldFault? earlier f = none ∧ fault? (earlier ++ [f.name]) fs = none := by
      rw [fault?]
      split
      · next fault found => simp [found]
      · next none => simp [none]
    rw [first, ih, fieldFault?_none_iff]
    constructor
    · rintro ⟨⟨name, free, collections⟩, sound, rest⟩
      refine ⟨⟨?_, ?_, ?_⟩, ?_⟩
      · exact List.forall_mem_cons.2 ⟨name, sound.names⟩
      · exact List.forall_mem_cons.2 ⟨collections, sound.collections⟩
      · refine List.nodup_cons.2 ⟨?_, sound.distinct⟩
        intro member
        obtain ⟨g, later, same⟩ := List.mem_map.1 member
        exact rest g later (by simp [same])
      · refine List.forall_mem_cons.2 ⟨free, fun g later known => rest g later ?_⟩
        exact List.mem_append_left _ known
    · rintro ⟨⟨names, collections, distinct⟩, free⟩
      obtain ⟨other, distinct⟩ := List.nodup_cons.1 distinct
      obtain ⟨name, names⟩ := List.forall_mem_cons.1 names
      obtain ⟨collection, collections⟩ := List.forall_mem_cons.1 collections
      obtain ⟨new, free⟩ := List.forall_mem_cons.1 free
      refine ⟨⟨name, new, collection⟩, ⟨names, collections, distinct⟩, fun g later known => ?_⟩
      rcases List.mem_append.1 known with before | here
      · exact free g later before
      · exact other (List.mem_map.2 ⟨g, later, List.mem_singleton.1 here⟩)

theorem ofText_ok {path : Path} {languageFile : Option String} {text : String} {r : Resource} :
    ofText path languageFile text = .ok r ↔ ∃ fields, parseFields path text = .ok fields ∧
      IsSound fields ∧ r = ⟨path, fields, languageFile⟩ := by
  rw [ofText, bind_ok_iff]
  refine exists_congr fun fields => and_congr_right fun _ => ?_
  have sound : fault? [] fields = none ↔ IsSound fields := by simp [fault?_none_iff]
  split
  · next fault found => simp [← sound, found]
  · next none => simp [← sound, none, eq_comm]

theorem ofFile_ok {t : Tree} {path : Path} {languageFile : Option String} {r : Resource} :
    ofFile t path languageFile = .ok r ↔
      ∃ text, t.read? path = some text ∧ ofText path languageFile text = .ok r := by
  rw [ofFile]
  split
  · next noFile =>
    constructor
    · intro loaded
      cases loaded
    · rintro ⟨text, read, _⟩
      simp [Tree.read?_isFile read] at noFile
  · split
    · next unread => simp [unread]
    · next text read => simp [read]

theorem load_ok {t : Tree} {name : String} {base : Path} {languageFile : Option String}
    {r : Resource} : load t name base languageFile = .ok r ↔ ∃ text,
      t.read? (locate t name base) = some text ∧
      ofText (locate t name base) languageFile text = .ok r := ofFile_ok

theorem load_sound {t : Tree} {name : String} {base : Path} {languageFile : Option String}
    {r : Resource} (loaded : load t name base languageFile = .ok r) : IsSound r.fields := by
  obtain ⟨text, _, read⟩ := load_ok.1 loaded
  obtain ⟨fields, _, sound, rfl⟩ := ofText_ok.1 read
  exact sound

end Resource

namespace Stub

/-- A stub is the text of its file; without one, the bundled form stub is the default. -/
theorem load_ok {t : Tree} {stubs : Path} {template name : String} {stub : Stub} :
    load t stubs template name = .ok stub ↔
      (∃ text, t.read? (pathOf stubs template name) = some text ∧ stub = ⟨name, template, text⟩) ∨
      t.isFile (pathOf stubs template name) = false ∧ template = defaultTemplate ∧
        name = formStub ∧ stub = ofText name bundledForm := by
  rw [load]
  split
  · next file =>
    split
    · next text read => simp [read, file, eq_comm]
    · next unread => simp [unread, file]
  · next noFile =>
    have unread : t.read? (pathOf stubs template name) = none := by
      rw [Option.eq_none_iff_forall_ne_some]
      exact fun text read => noFile (Tree.read?_isFile read)
    split
    · next known =>
      simp only [Bool.and_eq_true, decide_eq_true_eq] at known
      constructor
      · intro loaded
        exact Or.inr ⟨by simpa using noFile, known.1, known.2, (Except.ok.inj loaded).symm⟩
      · rintro (⟨text, read, _⟩ | ⟨_, _, _, rfl⟩)
        · rw [unread] at read
          cases read
        · rfl
    · next other =>
      have unknown : template = defaultTemplate → name ≠ formStub := by simpa using other
      constructor
      · intro loaded
        cases loaded
      · rintro (⟨text, read, _⟩ | ⟨_, first, second, _⟩)
        · rw [unread] at read
          cases read
        · exact absurd second (unknown first)

end Stub

namespace Plan

def formOf (c : Config) (s : Settings) (r : Resource) : Form :=
  ⟨r.fields, s.modelName, c.styleFor s.templateName, some s.languageFileName⟩

def placeholdersOf (c : Config) (s : Settings) (r : Resource) : Placeholders :=
  s.formPlaceholders (formOf c s r).markup
    (Variables.ofFields r.fields (Name.singularVariable s.modelName)) (formOf c s r).header.accessor

def ofParts (c : Config) (s : Settings) (r : Resource) (mode : WriteMode) (stub : Stub) : Plan where
  settings := s
  resource := r
  destination := s.destination
  mode := mode
  header := (formOf c s r).header
  arguments := Variables.ofFields r.fields (Name.singularVariable s.modelName)
  stub := stub
  text := stub.render (placeholdersOf c s r)
  unknownTokens := (placeholdersOf c s r).unknownTokens stub.text

theorem make_iff {t : Tree} {o : Options} {c : Config} {p : Plan} : make t o c = .ok p ↔
    ∃ s resource mode stub, o.settle c = .ok s ∧
      Resource.load t s.resourceFile s.paths.resourceFiles (some s.languageFileName)
        = .ok resource ∧
      Destination.check t s.destination s.force resource = .ok mode ∧
      Stub.load t s.paths.stubs s.templateName Stub.formStub = .ok stub ∧
      p = ofParts c s resource mode stub := by
  simp only [make, bind_ok_iff]
  constructor
  · rintro ⟨s, settled, resource, loaded, mode, checked, stub, read, same⟩
    cases same
    exact ⟨s, resource, mode, stub, settled, loaded, checked, read, rfl⟩
  · rintro ⟨s, resource, mode, stub, settled, loaded, checked, read, rfl⟩
    exact ⟨s, settled, resource, loaded, mode, checked, stub, read, rfl⟩

theorem made_text {t : Tree} {o : Options} {c : Config} {p : Plan} (made : make t o c = .ok p) :
    p.text = p.stub.render (placeholdersOf c p.settings p.resource) := by
  obtain ⟨s, resource, mode, stub, _, _, _, _, rfl⟩ := make_iff.1 made
  rfl

theorem made_entries {t : Tree} {o : Options} {c : Config} {p : Plan} (made : Made t o c p) :
    Language.IdentifierKeys p.languageEntries :=
  Language.entries_identifiers _ (Resource.load_sound made.loaded).names

theorem languageText_keys {planned t : Tree} {o : Options} {c : Config} {p : Plan} {loc : Location}
    {new : String} (made : Made planned o c p) (whole : LanguageText t p loc new) :
    ∀ e ∈ p.languageEntries, e.1 ∈ Language.definedKeys new := by
  rcases whole with ⟨_, rfl⟩ | ⟨old, _, completed⟩
  · exact Language.rendered_keys (made_entries made)
  · exact Language.completed_keys (made_entries made) completed

theorem execute_done {t t' : Tree} {p : Plan} {g : Generated}
    (executed : p.execute t = (t', .ok g)) :
    ∃ middle, t.write p.destination p.text = (middle, true) ∧
      Language.update middle p.settings.languagePath p.languageEntries = (t', .ok g.language) ∧
      g = ⟨p.destination, p.mode, g.language⟩ := by
  rcases execute_cases executed with ⟨_, same⟩ | ⟨middle, update, written, updated, same⟩
  · cases same
  · cases update with
    | error e => cases same
    | ok u =>
      cases same
      exact ⟨middle, written, updated, rfl⟩

/-- What a run that succeeds leaves, and what it reports. -/
structure Created (t t' : Tree) (o : Options) (c : Config) (p : Plan) (g : Generated) : Prop where
  made : make t o c = .ok p
  executed : p.execute t = (t', .ok g)
  grows : Tree.Grows t t'
  path : g.path = p.settings.destination
  languagePath : g.language.path = p.settings.languagePath
  view : t'.read? p.settings.destination = some p.text
  language : ∃ content, t'.read? p.settings.languagePath = some content ∧
    ∀ e ∈ p.languageEntries, e.1 ∈ Language.definedKeys content

theorem create_done {t t' : Tree} {o : Options} {c : Config} {g : Generated}
    (created : create t o c = (t', .ok g)) : ∃ p, Created t t' o c p g := by
  rcases create_cases created with ⟨e, _, _, same⟩ | ⟨p, made, executed⟩
  · cases same
  · have parts := make_ok made
    obtain ⟨middle, written, updated, result⟩ := execute_done executed
    have effect := Language.update_effect updated
    obtain ⟨q, loc, content, again, view, _, whole, read⟩ :=
      (effect_executed made executed).done g rfl
    rw [made] at again
    cases again
    exact ⟨p, made, executed,
      Tree.grows_trans (Tree.write_puts written).1 (Language.effect_grows effect),
      by rw [result, ← parts.destination], Language.effect_path effect, view,
      content, read, languageText_keys parts whole⟩

end Plan

end BladeForm
