import BladeForm.Plan
import BladeForm.Proofs.Language.Effect
import BladeForm.Proofs.Name

/-!
What generating a form view does to the tree. Planning changes nothing; executing writes the
view, then the language file, and these two never are one file. So whatever fails and whatever
the paths are, all other files stay, and each of the two is left as it was or has its whole text.
-/
namespace BladeForm

/-- What fails once the view was planned: a write, or reading or merging the language file. -/
def Failure.isLate : Failure → Bool
  | .notWritten _ | .languageFile _ _ | .unreadable .languageFile _ => true
  | _ => false

namespace Options

structure Settles (o : Options) (c : Config) (s : Settings) : Prop where
  model : Name.isModelName s.modelName = true
  group : Name.isGroupName s.languageFileName = true
  force : s.force = o.force
  paths : s.paths = c.paths
  locale : s.locale = c.defaults.locale

theorem settle_ok {o : Options} {c : Config} {s : Settings} (settled : o.settle c = .ok s) :
    Settles o c s := by
  simp only [settle] at settled
  split_ifs at settled with model group
  cases settled
  exact ⟨by simpa using model, by simpa using group, rfl, rfl, rfl⟩

end Options

theorem group_chars {name : String} (valid : Name.isGroupName name = true) {c : Char}
    (member : c ∈ name.toList) : Name.isWordChar c = true ∨ c = '-' := by
  obtain ⟨d, ds, spelled, first, rest⟩ := Name.starts_split valid
  rw [spelled] at member
  rcases List.mem_cons.1 member with rfl | later
  · exact Or.inl (Name.first_word first)
  · simpa using rest c later

theorem group_free {name : String} (valid : Name.isGroupName name = true) {c : Char}
    (other : Name.isWordChar c = false) (hyphen : c ≠ '-') : c ∉ name.toList := by
  intro member
  rcases group_chars valid member with word | same
  · rw [word] at other
    contradiction
  · exact hyphen same

namespace Settings

theorem destination_segments (s : Settings) :
    ∃ before, s.destination.segments = before ++ [Destination.fileName.toList] :=
  Path.join_segments _ (by decide)

theorem languagePath_segments {s : Settings} (group : Name.isGroupName s.languageFileName = true) :
    ∃ before, s.languagePath.segments
      = before ++ [s.languageFileName.toList ++ ['.', 'p', 'h', 'p']] := by
  have text : (s!"{s.languageFileName}.php").toList
      = s.languageFileName.toList ++ ['.', 'p', 'h', 'p'] := by
    simp [toString]
  rw [← text]
  refine Path.join_segments _ ?_
  rw [text]
  simp [group_free group (by decide : Name.isWordChar '/' = false) (by decide)]

theorem fileNames_differ {s : Settings} (group : Name.isGroupName s.languageFileName = true) :
    Destination.fileName.toList ≠ s.languageFileName.toList ++ ['.', 'p', 'h', 'p'] := by
  intro same
  have stem : ['f', 'o', 'r', 'm', '.', 'b', 'l', 'a', 'd', 'e'] = s.languageFileName.toList :=
    @List.append_cancel_right _ _ ['.', 'p', 'h', 'p'] _ same
  -- the name of a view has one dot more
  exact group_free group (by decide : Name.isWordChar '.' = false) (by decide) (by simp [← stem])

theorem paths_differ {s : Settings} (group : Name.isGroupName s.languageFileName = true) :
    s.languagePath ≠ s.destination := by
  intro same
  obtain ⟨before, view⟩ := s.destination_segments
  obtain ⟨front, file⟩ := languagePath_segments group
  rw [same, view] at file
  exact fileNames_differ group (List.cons.inj (List.append_inj' file rfl).2).1

theorem long_named {segment : List Char} (long : 2 < segment.length) :
    Path.isSilent segment = false ∧ Path.isUpward segment = false := by
  rw [← Bool.not_eq_true, ← Bool.not_eq_true]
  constructor
  · intro silent
    simp only [Path.isSilent, Bool.or_eq_true, decide_eq_true_eq] at silent
    rcases silent with rfl | rfl <;> simp at long
  · intro upward
    rw [of_decide_eq_true upward] at long
    simp at long

theorem places_differ {s : Settings} (group : Name.isGroupName s.languageFileName = true)
    {t : Tree} {view file : Location} (viewPlace : t.place? s.destination = some view)
    (filePlace : t.place? s.languagePath = some file) : view ≠ file := by
  obtain ⟨before, viewSegments⟩ := s.destination_segments
  obtain ⟨front, fileSegments⟩ := languagePath_segments group
  exact Tree.place?_apart viewSegments fileSegments (fileNames_differ group) (by decide)
    (long_named (by simp)) viewPlace filePlace

end Settings

namespace Plan

structure Made (t : Tree) (o : Options) (c : Config) (p : Plan) : Prop where
  settled : o.settle c = .ok p.settings
  loaded : Resource.load t p.settings.resourceFile p.settings.paths.resourceFiles
    (some p.settings.languageFileName) = .ok p.resource
  destination : p.destination = p.settings.destination
  checked : Destination.check t p.destination p.settings.force p.resource = .ok p.mode
  stub : Stub.load t p.settings.paths.stubs p.settings.templateName Stub.formStub = .ok p.stub

theorem make_ok {t : Tree} {o : Options} {c : Config} {p : Plan} (made : make t o c = .ok p) :
    Made t o c p := by
  simp only [make, bind_ok_iff] at made
  obtain ⟨s, settled, resource, loaded, mode, checked, stub, read, same⟩ := made
  cases same
  exact ⟨settled, loaded, rfl, checked, read⟩

theorem made_mode {t : Tree} {o : Options} {c : Config} {p : Plan} (made : Made t o c p) :
    (p.mode = .overwrite ↔ t.has p.destination = true) ∧
      (p.settings.force = false → t.has p.destination = false) := by
  have checked := made.checked
  rw [Destination.check] at checked
  split_ifs at checked with refused hidden there
  · rw [← Except.ok.inj checked]
    exact ⟨by simp [there], by simpa [there] using refused⟩
  · rw [← Except.ok.inj checked]
    exact ⟨by simp [there], fun _ => by simpa using there⟩

/-- All that an execution can come to: the view is not written, or it is and the language file
    is updated. -/
theorem execute_cases {t t' : Tree} {p : Plan} {r : Except Failure Generated}
    (executed : p.execute t = (t', r)) :
    t.write p.destination p.text = (t', false) ∧ r = .error (.notWritten p.destination) ∨
      ∃ middle update, t.write p.destination p.text = (middle, true) ∧
        Language.update middle p.settings.languagePath p.languageEntries = (t', update) ∧
        r = update.map fun u => ⟨p.destination, p.mode, u⟩ := by
  unfold execute at executed
  split at executed
  · next failed =>
    cases executed
    exact Or.inl ⟨failed, rfl⟩
  · next middle written =>
    split at executed
    · next e updated =>
      cases executed
      exact Or.inr ⟨middle, _, written, updated, rfl⟩
    · next u updated =>
      cases executed
      exact Or.inr ⟨middle, _, written, updated, rfl⟩

theorem execute_late {t t' : Tree} {p : Plan} {e : Failure}
    (executed : p.execute t = (t', .error e)) : e.isLate = true := by
  rcases execute_cases executed with ⟨_, same⟩ | ⟨middle, update, _, updated, same⟩
  · cases same
    rfl
  · cases update with
    | ok u => cases same
    | error f =>
      cases same
      have effect := Language.update_effect updated
      cases effect <;> rfl

/-- A view that was written is there at the end, since the language file stands elsewhere. -/
theorem written_view {planned t middle t' : Tree} {o : Options} {c : Config} {p : Plan}
    {r : Except Failure Language.Update} (made : Made planned o c p)
    (written : t.write p.destination p.text = (middle, true))
    (effect : Language.Effect middle p.settings.languagePath p.languageEntries t' r) :
    ∃ view, t'.place? p.destination = some view ∧
      t'.entryAt? view = some (some (.text p.text)) ∧
      t'.place? p.settings.languagePath ≠ some view ∧
      ∀ loc, loc ≠ view → Tree.KeptAt t middle loc := by
  obtain ⟨_, view, place, file, _, kept⟩ := Tree.write_puts written
  have place' := Tree.place?_grows (Language.effect_grows effect) place
  have apart : t'.place? p.settings.languagePath ≠ some view := by
    intro same
    have group := (Options.settle_ok made.settled).group
    exact Settings.places_differ group (made.destination ▸ place') same rfl
  refine ⟨view, place', ?_, apart, kept⟩
  exact (Tree.kept_file (Language.effect_others effect apart) _).2 file

theorem create_cases {t t' : Tree} {o : Options} {c : Config} {r : Except Failure Generated}
    (created : create t o c = (t', r)) :
    (∃ e, make t o c = .error e ∧ t' = t ∧ r = .error e) ∨
      ∃ p, make t o c = .ok p ∧ p.execute t = (t', r) := by
  unfold create at created
  split at created
  · next e refused =>
    cases created
    exact Or.inl ⟨e, refused, rfl, rfl⟩
  · next p made => exact Or.inr ⟨p, made, created⟩

/-- The whole new text of a language file at a location: all entries if its path led nowhere,
    else the old text with the entries that it lacked. -/
def LanguageText (t : Tree) (p : Plan) (loc : Location) (new : String) : Prop :=
  t.has p.settings.languagePath = false ∧ new = Language.render p.languageEntries ∨
    ∃ old, t.entryAt? loc = some (some (.text old)) ∧ Language.Completed old p.languageEntries new

theorem languageText_before {t middle t' : Tree} {p : Plan} {loc : Location} {new : String}
    (grows : Tree.Grows t middle) (later : Tree.Grows middle t') (kept : Tree.KeptAt t middle loc)
    (place : t'.place? p.settings.languagePath = some loc)
    (whole : Language.WholeText middle p.settings.languagePath p.languageEntries new) :
    LanguageText t p loc new := by
  rcases whole with ⟨absent, all⟩ | ⟨old, read, completed⟩
  · left
    refine ⟨?_, all⟩
    rw [← Bool.not_eq_true] at absent ⊢
    exact fun there => absent (Tree.has_grows grows there)
  · obtain ⟨l, leads, file⟩ := Tree.read?_iff.1 read
    rw [Tree.place?_grows later leads] at place
    cases place
    exact Or.inr ⟨old, (Tree.kept_file kept _).1 file, completed⟩

/-- What a creation does to the tree, given its settings. -/
structure Effect (t t' : Tree) (o : Options) (c : Config) (s : Settings)
    (r : Except Failure Generated) : Prop where
  others : ∀ loc, t'.place? s.destination ≠ some loc → t'.place? s.languagePath ≠ some loc →
    Tree.KeptAt t t' loc
  view : ∀ loc, t'.place? s.destination = some loc → Tree.KeptAt t t' loc ∨
    ∃ p, make t o c = .ok p ∧ t'.entryAt? loc = some (some (.text p.text))
  language : ∀ loc, t'.place? s.languagePath = some loc → Tree.KeptAt t t' loc ∨
    ∃ p new, make t o c = .ok p ∧ LanguageText t p loc new ∧
      t'.entryAt? loc = some (some (.text new))
  done : ∀ g, r = .ok g → ∃ p loc new, make t o c = .ok p ∧
    t'.read? s.destination = some p.text ∧ t'.place? s.languagePath = some loc ∧
    LanguageText t p loc new ∧ t'.read? s.languagePath = some new
  refused : t.has s.destination = true → o.force = false → (∃ e, r = .error e) ∧ t' = t
  unwritten : r = .error (.notWritten s.destination) → ∀ loc, Tree.KeptAt t t' loc

theorem effect_unplanned {t : Tree} {o : Options} {c : Config} (s : Settings) (e : Failure) :
    Effect t t o c s (.error e) where
  others loc _ _ := Tree.kept_refl t loc
  view loc _ := Or.inl (Tree.kept_refl t loc)
  language loc _ := Or.inl (Tree.kept_refl t loc)
  done _ same := by cases same
  refused _ _ := ⟨⟨e, rfl⟩, rfl⟩
  unwritten _ loc := Tree.kept_refl t loc

theorem made_free {t : Tree} {o : Options} {c : Config} {p : Plan} (made : make t o c = .ok p)
    (free : o.force = false) : t.has p.settings.destination = false := by
  have parts := make_ok made
  rw [← parts.destination]
  exact (made_mode parts).2 (by rw [(Options.settle_ok parts.settled).force, free])

theorem effect_unwritten {t t' : Tree} {o : Options} {c : Config} {p : Plan}
    (made : make t o c = .ok p) (failed : t.write p.destination p.text = (t', false)) :
    Effect t t' o c p.settings (.error (.notWritten p.destination)) := by
  obtain ⟨_, kept⟩ := Tree.write_failed failed
  refine ⟨fun loc _ _ => kept loc, fun loc _ => Or.inl (kept loc), fun loc _ => Or.inl (kept loc),
    fun _ same => (by cases same), fun there free => ?_, fun _ => kept⟩
  rw [made_free made free] at there
  cases there

section
variable {t middle t' : Tree} {o : Options} {c : Config} {p : Plan}
  {update : Except Failure Language.Update} (made : make t o c = .ok p)
  (written : t.write p.destination p.text = (middle, true))
  (effect : Language.Effect middle p.settings.languagePath p.languageEntries t' update)
include made written effect

theorem language_untouched {loc : Location} (leads : t'.place? p.settings.languagePath = some loc) :
    Tree.KeptAt t middle loc := by
  obtain ⟨view, _, _, apart, kept⟩ := written_view (make_ok made) written effect
  refine kept loc ?_
  rintro rfl
  exact apart leads

theorem language_kept_or_whole {loc : Location}
    (leads : t'.place? p.settings.languagePath = some loc) : Tree.KeptAt t t' loc ∨
      ∃ new, LanguageText t p loc new ∧ t'.entryAt? loc = some (some (.text new)) := by
  have untouched := language_untouched made written effect leads
  rcases Language.effect_file effect leads with still | ⟨new, whole, there⟩
  · exact Or.inl (Tree.kept_trans untouched still)
  · exact Or.inr ⟨new, languageText_before (Tree.write_puts written).1
      (Language.effect_grows effect) untouched leads whole, there⟩

theorem language_whole {u : Language.Update} (done : update = .ok u) : ∃ loc new,
    t'.place? p.settings.languagePath = some loc ∧ LanguageText t p loc new ∧
      t'.read? p.settings.languagePath = some new := by
  subst done
  obtain ⟨new, whole, read⟩ := Language.effect_done effect
  obtain ⟨loc, leads, _⟩ := Tree.read?_iff.1 read
  exact ⟨loc, new, leads, languageText_before (Tree.write_puts written).1
    (Language.effect_grows effect) (language_untouched made written effect leads) leads whole, read⟩

theorem effect_written :
    Effect t t' o c p.settings (update.map fun u => ⟨p.destination, p.mode, u⟩) := by
  have parts := make_ok made
  obtain ⟨view, place, file, _, kept⟩ := written_view parts written effect
  rw [parts.destination] at place
  refine
    { others := ?others, view := ?view, language := ?language, done := ?done
      refused := ?refused, unwritten := ?unwritten }
  case others =>
    intro loc noView noFile
    refine Tree.kept_trans (kept loc ?_) (Language.effect_others effect noFile)
    rintro rfl
    exact noView place
  case view =>
    intro loc leads
    rw [place] at leads
    cases leads
    exact Or.inr ⟨p, made, file⟩
  case language =>
    intro loc leads
    refine (language_kept_or_whole made written effect leads).imp_right ?_
    rintro ⟨new, whole, there⟩
    exact ⟨p, new, made, whole, there⟩
  case done =>
    intro g same
    cases update with
    | error e => cases same
    | ok u =>
      obtain ⟨loc, new, leads, whole, read⟩ := language_whole made written effect rfl
      exact ⟨p, loc, new, made, Tree.read?_iff.2 ⟨view, place, file⟩, leads, whole, read⟩
  case refused =>
    intro there free
    rw [made_free made free] at there
    cases there
  case unwritten =>
    intro same
    cases update with
    | ok u => cases same
    | error e =>
      cases same
      -- the path of the language file is another one
      generalize path : p.settings.languagePath = file at effect
      cases effect
      exact absurd path (Settings.paths_differ (Options.settle_ok parts.settled).group)

end

theorem effect_executed {t t' : Tree} {o : Options} {c : Config} {p : Plan}
    {r : Except Failure Generated} (made : make t o c = .ok p) (executed : p.execute t = (t', r)) :
    Effect t t' o c p.settings r := by
  rcases execute_cases executed with ⟨failed, rfl⟩ | ⟨middle, update, written, updated, rfl⟩
  · exact effect_unwritten made failed
  · exact effect_written made written (Language.update_effect updated)

/-- Generating a view touches two files at most, and each of them as a whole. A failure before
    anything is written changes nothing, and so does a view that is there, unless forced. -/
theorem creation_touches_two_files {t t' : Tree} {o : Options} {c : Config}
    {r : Except Failure Generated} (created : create t o c = (t', r)) :
    (∀ e, r = .error e → e.isLate = false → t' = t) ∧
      ∀ s, o.settle c = .ok s → Effect t t' o c s r := by
  rcases create_cases created with ⟨e, refused, rfl, rfl⟩ | ⟨p, made, executed⟩
  · exact ⟨fun _ _ _ => rfl, fun s _ => effect_unplanned s e⟩
  · constructor
    · rintro e rfl early
      rw [execute_late executed] at early
      contradiction
    · intro s settled
      rw [(make_ok made).settled] at settled
      cases settled
      exact effect_executed made executed

def sharedTree (view : Entries) : Tree :=
  ⟨[("post.json", .file (.text "[\x7b\"name\": \"title\"\x7d]")),
    ("default", .folder [("form.blade.stub", .file (.text "[% view_variables %]!"))]),
    ("site", .folder [("posts", .folder view), ("en", .folder [
      ("posts.php", .file (.text "<?php return [\n'title' => 'Titel'\n];\n")),
      ("notes.php", .file (.text "kept"))])])], []⟩

def handEdited : Entries := [("form.blade.php", .file (.text "hand edited"))]

def sharedConfig : Config := { paths := ⟨⟨""⟩, ⟨"site"⟩, ⟨""⟩, ⟨"site"⟩⟩ }

def postOptions (force : Bool) : Options := { modelName := "Post", force }

theorem shared_root_written :
    ∃ t' g s, create (sharedTree handEdited) (postOptions true) sharedConfig = (t', .ok g) ∧
      (postOptions true).settle sharedConfig = .ok s ∧
      Effect (sharedTree handEdited) t' (postOptions true) sharedConfig s (.ok g) ∧
      t'.read? ⟨"site/posts/form.blade.php"⟩ = some "'post'!" ∧
      t'.read? ⟨"site/en/posts.php"⟩ = some ("<?php return [\n'title' => 'Titel',\n    "
        ++ "'model_name' => 'Post',\n    'model_plural' => 'Posts',\n];\n") ∧
      t'.entryAt? ["site", "en", "notes.php"] = some (some (.text "kept")) := by
  have runs : (create (sharedTree handEdited) (postOptions true) sharedConfig).2.toBool = true := by
    decide +kernel
  have settles : ((postOptions true).settle sharedConfig).toBool = true := by decide +kernel
  obtain ⟨g, done⟩ := ok_of_toBool runs
  obtain ⟨s, settled⟩ := ok_of_toBool settles
  have created : create (sharedTree handEdited) (postOptions true) sharedConfig
      = ((create (sharedTree handEdited) (postOptions true) sharedConfig).1, .ok g) := by
    rw [← done]
  exact ⟨_, g, s, created, settled, (creation_touches_two_files created).2 s settled,
    by decide +kernel, by decide +kernel, by decide +kernel⟩

end Plan

end BladeForm
