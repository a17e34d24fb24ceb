import BladeForm.Check
import BladeForm.Proofs.Plan.Parts
import Mathlib.Data.List.Nodup

/-!
What a check of a resource foretells of plans. Both load the same file, and only loading fails
the way loading does, so a check fails exactly with the failure that a plan meets there. A report
that is made names what every plan made from the resource passes, prints and renders, and
whether there is anything to render at all.
-/
namespace BladeForm

/-- The failures of loading a resource. An unreadable stub is another one. -/
def Failure.isOfResource : Failure → Bool
  | .resourceNotFound _ | .malformedResource _ _ | .invalidResource _ _ | .unreadable .plain _ =>
    true
  | _ => false

namespace Resource

theorem parseFields_error {path : Path} {text : String} {e : Failure}
    (failed : parseFields path text = .error e) :
    (∃ fault, e = .malformedResource path fault) ∨ ∃ fault, e = .invalidResource path fault := by
  have mapped : ∀ {α ε : Type} {x : Except ε α} {g : ε → Failure},
      x.mapError g = .error e → ∃ d, e = g d := by
    intro α ε x g same
    cases x with
    | error d => exact ⟨d, (Except.error.inj same).symm⟩
    | ok a => cases same
  rw [parseFields, bind_error_iff] at failed
  rcases failed with unread | ⟨v, _, failed⟩
  · obtain ⟨d, rfl⟩ := mapped unread
    exact Or.inl ⟨_, rfl⟩
  · rcases bind_error_iff.1 failed with none | ⟨array, _, undecoded⟩
    · unfold fieldArray at none
      split at none
      · cases none
      · split at none
        · cases none
        · cases none
          exact Or.inr ⟨_, rfl⟩
      · cases none
        exact Or.inr ⟨_, rfl⟩
    · obtain ⟨d, rfl⟩ := mapped undecoded
      exact Or.inl ⟨_, rfl⟩

theorem ofFile_error {t : Tree} {path : Path} {languageFile : Option String} {e : Failure}
    (failed : ofFile t path languageFile = .error e) :
    e = .resourceNotFound path ∨ e = .unreadable .plain path ∨
      (∃ fault, e = .malformedResource path fault) ∨ ∃ fault, e = .invalidResource path fault := by
  rw [ofFile] at failed
  split at failed
  · cases failed
    exact Or.inl rfl
  · split at failed
    · cases failed
      exact Or.inr (Or.inl rfl)
    · rw [ofText, bind_error_iff] at failed
      rcases failed with unparsed | ⟨fields, _, failed⟩
      · exact Or.inr (Or.inr (parseFields_error unparsed))
      · split at failed
        · cases failed
          exact Or.inr (Or.inr (Or.inr ⟨_, rfl⟩))
        · cases failed

theorem load_error {t : Tree} {name : String} {base : Path} {languageFile : Option String}
    {e : Failure} (failed : load t name base languageFile = .error e) :
    e.isOfResource = true := by
  rcases ofFile_error failed with rfl | rfl | ⟨_, rfl⟩ | ⟨_, rfl⟩ <;> rfl

theorem load_noted (t : Tree) (name : String) (base : Path) (languageFile : Option String) :
    load t name base languageFile
      = (load t name base none).map fun r => { r with languageFile } := by
  rw [load, load, ofFile, ofFile]
  split
  · rfl
  · split
    · rfl
    · next text _ =>
      rw [ofText, ofText]
      cases parseFields (locate t name base) text with
      | error e => rfl
      | ok fields =>
        simp only [bind, Except.bind]
        cases fault? [] fields with
        | some fault => rfl
        | none => rfl

theorem hasFieldsOn_iff (r : Resource) (v : View) :
    r.hasFieldsOn v = true ↔ r.fieldsOn v ≠ [] := by
  rw [hasFieldsOn, fieldsOn, List.any_eq_true, ne_eq, List.filter_eq_nil_iff]
  simp

theorem fieldsOn_named {r : Resource} (sound : IsSound r.fields) (v : View) :
    r.fields.filter (fun f => f.name ∈ (r.fieldsOn v).map (·.name)) = r.fieldsOn v := by
  rw [fieldsOn]
  refine List.filter_congr fun f member => ?_
  rw [Bool.eq_iff_iff, decide_eq_true_eq, List.mem_map]
  constructor
  · rintro ⟨g, shown, same⟩
    obtain ⟨among, on⟩ := List.mem_filter.1 shown
    -- names are different, so a name tells its field
    rwa [← List.inj_on_of_nodup_map sound.distinct among member same]
  · intro on
    exact ⟨f, List.mem_filter.2 ⟨member, on⟩, rfl⟩

end Resource

theorem Stub.load_error {t : Tree} {stubs : Path} {template name : String} {e : Failure}
    (failed : Stub.load t stubs template name = .error e) :
    e = .unreadable .stub (pathOf stubs template name) ∨
      e = .stubNotFound name template (pathOf stubs template name) := by
  rw [load] at failed
  split_ifs at failed
  · split at failed
    · cases failed
    · cases failed
      exact Or.inl rfl
  · cases failed
    exact Or.inr rfl

theorem Destination.check_error {t : Tree} {path : Path} {force : Bool} {r : Resource} {e : Failure}
    (failed : Destination.check t path force r = .error e) :
    e = .viewExists path ∧ t.has path = true ∧ force = false ∨
      e = .emptyResource r.path ∧ (t.has path = false ∨ force = true) ∧
        r.hasFieldsOn .form = false := by
  rw [check] at failed
  split_ifs at failed with refused empty
  · cases failed
    exact Or.inl ⟨rfl, by simpa using refused⟩
  · cases failed
    have free : t.has path = false ∨ force = true := by
      cases force <;> simp_all
    exact Or.inr ⟨rfl, free, by simpa using empty⟩

theorem Destination.check_empty_iff {t : Tree} {path q : Path} {force : Bool} {r : Resource}
    (free : t.has path = false ∨ force = true) :
    Destination.check t path force r = .error (.emptyResource q) ↔
      q = r.path ∧ r.hasFieldsOn .form = false := by
  constructor
  · intro failed
    rcases check_error failed with ⟨same, _⟩ | ⟨same, _, hidden⟩
    · cases same
    · cases same
      exact ⟨rfl, hidden⟩
  · rintro ⟨rfl, hidden⟩
    have stands : (t.has path && !force) = false := by
      rcases free with absent | forced
      · simp [absent]
      · simp [forced]
    rw [check, stands, if_neg Bool.false_ne_true, hidden]
    rfl

def Warning.initial : Warning → Char
  | .controlIgnored _ _ => 'F'
  | .relationHidden _ => 'R'
  | .nothingToSelect _ => 'S'
  | .emptyForm => 'N'

theorem Warning.message_initial (w : Warning) : w.message.toList.head? = some w.initial := by
  unfold message
  cases w <;> simp [initial, toString]

namespace Report

theorem make_ok {t : Tree} {f : String} {c : Config} {r : Report} : make t f c = .ok r ↔
    ∃ resource, Resource.load t f c.paths.resourceFiles none = .ok resource ∧
      r = ofResource resource := by
  rw [make]
  cases Resource.load t f c.paths.resourceFiles none with
  | error e => exact ⟨fun same => (by cases same), fun ⟨_, same, _⟩ => (by cases same)⟩
  | ok resource =>
    constructor
    · intro same
      exact ⟨resource, rfl, (Except.ok.inj same).symm⟩
    · rintro ⟨_, same, rfl⟩
      cases same
      rfl

theorem make_error {t : Tree} {f : String} {c : Config} {e : Failure} : make t f c = .error e ↔
    Resource.load t f c.paths.resourceFiles none = .error e := by
  rw [make]
  cases Resource.load t f c.paths.resourceFiles none with
  | error d => exact ⟨fun same => (by cases same; rfl), fun same => (by cases same; rfl)⟩
  | ok resource => exact ⟨fun same => (by cases same), fun same => (by cases same)⟩

theorem formFields_nil_iff (resource : Resource) :
    (ofResource resource).formFields = [] ↔ resource.hasFieldsOn .form = false := by
  rw [← Bool.not_eq_true, Resource.hasFieldsOn_iff, not_not]
  exact List.map_eq_nil_iff

theorem warning_message_ne {f : Field} {w : Warning} (warned : f.warning? = some w) :
    w.message ≠ Warning.emptyForm.message := by
  intro same
  have initial : w.initial = 'N' := by
    have first := Warning.message_initial w
    rw [same, Warning.message_initial] at first
    exact (Option.some.inj first).symm
  rw [Field.warning?] at warned
  split at warned <;> split_ifs at warned <;> cases warned <;> simp [Warning.initial] at initial

theorem warns_empty_iff (resource : Resource) :
    "No field is visible on the form" ∈ (ofResource resource).warnings.map Warning.message ↔
      resource.hasFieldsOn .form = false := by
  have fields : ∀ w ∈ resource.fields.filterMap Field.warning?,
      w.message ≠ Warning.emptyForm.message := by
    intro w member
    obtain ⟨f, _, warned⟩ := List.mem_filterMap.1 member
    exact warning_message_ne warned
  rw [ofResource, List.map_append, List.mem_append]
  constructor
  · rintro (field | form)
    · obtain ⟨w, member, same⟩ := List.mem_map.1 field
      exact absurd same (fields w member)
    · cases shown : resource.hasFieldsOn .form with
      | false => rfl
      | true => simp [shown] at form
  · intro hidden
    refine Or.inr ?_
    rw [hidden]
    exact List.mem_singleton.2 rfl

end Report

namespace Options

theorem settled_resourceFile {o : Options} {c : Config} {s : Settings} {f : String}
    (settled : o.settle c = .ok s) (given : o.resourceFile = some f) (trimmed : Text.trim f = f)
    (nonempty : f ≠ "") : s.resourceFile = f := by
  simp only [settle] at settled
  split_ifs at settled
  cases settled
  simp [given, nonBlank, trimmed, nonempty]

theorem settled_model {o : Options} {c : Config} {s : Settings} (settled : o.settle c = .ok s) :
    s.modelName = Text.trim o.modelName := by
  simp only [settle] at settled
  split_ifs at settled
  cases settled
  rfl

end Options

namespace Plan
variable {t : Tree} {o : Options} {c : Config} {s : Settings} {f : String}

/-- What a report tells about a plan: the call of the controller, the header, and which fields of
    the resource the markup of the view is made of, in which order. -/
structure Foretells (c : Config) (model : String) (r : Report) (p : Plan) : Prop where
  arguments : p.arguments
    = ",".intercalate ((Name.singularVariable model :: r.formCollections).map fun name =>
        "'" ++ name ++ "'")
  header : p.header.fields = r.headerFields
  rendered : (formOf c p.settings p.resource).markup
    = Form.joinLines ((p.resource.fields.filter fun f => f.name ∈ r.formFields).map
        (formOf c p.settings p.resource).fieldMarkup)
  names : (p.resource.fields.filter fun f => f.name ∈ r.formFields).map (·.name) = r.formFields
  view : p.text = p.stub.render (placeholdersOf c p.settings p.resource)

/-- With settled options, planning fails on loading, on the destination or on the stub. -/
theorem make_error_iff (settled : o.settle c = .ok s) {e : Failure} : make t o c = .error e ↔
    Resource.load t s.resourceFile s.paths.resourceFiles (some s.languageFileName) = .error e ∨
    ∃ resource, Resource.load t s.resourceFile s.paths.resourceFiles (some s.languageFileName)
        = .ok resource ∧
      (Destination.check t s.destination s.force resource = .error e ∨
        ∃ mode, Destination.check t s.destination s.force resource = .ok mode ∧
          Stub.load t s.paths.stubs s.templateName Stub.formStub = .error e) := by
  simp only [make, bind_error_iff, settled, reduceCtorEq, Except.ok.injEq, false_or,
    exists_eq_left', and_false, exists_false, or_false]

theorem made_foretold (model : s.modelName = Text.trim o.modelName) (settled : o.settle c = .ok s)
    {resource : Resource} (loaded : Resource.load t s.resourceFile s.paths.resourceFiles none
      = .ok resource) {p : Plan} (made : make t o c = .ok p) :
    Foretells c (Text.trim o.modelName) (Report.ofResource resource) p := by
  obtain ⟨s', noted, mode, stub, again, found, _, _, rfl⟩ := make_iff.1 made
  rw [settled] at again
  cases again
  rw [Resource.load_noted, loaded] at found
  cases found
  have valid := (Options.settle_ok settled).model
  have named := Resource.fieldsOn_named (Resource.load_sound loaded) .form
  refine ⟨?_, rfl, ?_, ?_, rfl⟩
  · rw [← model, ofParts, Variables.ofFields, Variables.build, if_neg (Name.record_ne valid)]
    rfl
  · exact congrArg (fun shown => Form.joinLines (shown.map (formOf c s resource).fieldMarkup))
      named.symm
  · exact congrArg (List.map (·.name)) named

theorem loading_foretold (settled : o.settle c = .ok s) (e : Failure) :
    Resource.load t s.resourceFile s.paths.resourceFiles none = .error e ↔
      make t o c = .error e ∧ e.isOfResource = true := by
  rw [make_error_iff settled, Resource.load_noted t _ _ (some s.languageFileName)]
  cases found : Resource.load t s.resourceFile s.paths.resourceFiles none with
  | error d =>
    have kind := Resource.load_error found
    constructor
    · intro same
      cases same
      exact ⟨Or.inl rfl, kind⟩
    · rintro ⟨same | ⟨_, same, _⟩, _⟩
      · cases same
        rfl
      · cases same
  | ok resource =>
    constructor
    · intro same
      cases same
    · rintro ⟨same | ⟨_, _, failed | ⟨_, _, failed⟩⟩, kind⟩
      · cases same
      · rcases Destination.check_error failed with ⟨rfl, _⟩ | ⟨rfl, _⟩ <;> cases kind
      · rcases Stub.load_error failed with rfl | rfl <;> cases kind

theorem empty_foretold (settled : o.settle c = .ok s) {resource : Resource}
    (loaded : Resource.load t s.resourceFile s.paths.resourceFiles none = .ok resource)
    (free : t.has s.destination = false ∨ o.force = true) (path : Path) :
    make t o c = .error (.emptyResource path) ↔
      path = resource.path ∧ (Report.ofResource resource).formFields = [] := by
  rw [← (Options.settle_ok settled).force] at free
  rw [make_error_iff settled, Resource.load_noted, loaded, Report.formFields_nil_iff]
  constructor
  · rintro (same | ⟨_, same, failed | ⟨_, _, failed⟩⟩)
    · cases same
    · cases same
      exact (Destination.check_empty_iff free).1 failed
    · rcases Stub.load_error failed with same | same <;> cases same
  · intro empty
    exact Or.inr ⟨_, rfl, Or.inl ((Destination.check_empty_iff free).2 empty)⟩

/-- A check of a resource fails exactly with the failure that a plan meets on loading it. Else its
    report names what every plan from it passes, prints and renders; and where nothing stands in
    the way of the view, only a resource without fields on the form is refused as empty, as the
    report warns. -/
theorem report_foretells_plan (settled : o.settle c = .ok s) (given : o.resourceFile = some f)
    (trimmed : Text.trim f = f) (nonempty : f ≠ "") :
    (∀ e, Report.make t f c = .error e ↔ make t o c = .error e ∧ e.isOfResource = true) ∧
      (∀ r p, Report.make t f c = .ok r → make t o c = .ok p →
        Foretells c (Text.trim o.modelName) r p) ∧
      ∀ r, Report.make t f c = .ok r →
        (t.has s.destination = false ∨ o.force = true → ∀ path,
          make t o c = .error (.emptyResource path) ↔ path = r.path ∧ r.formFields = []) ∧
        (r.formFields = [] ↔
          "No field is visible on the form" ∈ r.warnings.map Warning.message) := by
  have file := Options.settled_resourceFile settled given trimmed nonempty
  simp only [Report.make_error, Report.make_ok, ← file, ← (Options.settle_ok settled).paths]
  refine ⟨loading_foretold settled, ?_, ?_⟩
  · rintro _ p ⟨resource, loaded, rfl⟩ made
    exact made_foretold (Options.settled_model settled) settled loaded made
  · rintro _ ⟨resource, loaded, rfl⟩
    refine ⟨empty_foretold settled loaded, ?_⟩
    rw [Report.formFields_nil_iff, Report.warns_empty_iff]

def tagsTree : Tree :=
  ⟨[("tags.json", .file (.text ("[\x7b\"name\": \"slug\", \"is-on-form\": false, "
      ++ "\"is-header\": true\x7d, "
      ++ "\x7b\"name\": \"tag_id\", \"foreign-relation\": \x7b\"name\": \"tag\"\x7d\x7d, "
      ++ "\x7b\"name\": \"owner_id\", \"is-on-form\": false, "
      ++ "\"foreign-relation\": \x7b\"name\": \"user\"\x7d\x7d]"))),
    ("default", .folder [("form.blade.stub", .file (.text "[% view_variables %]!"))])], []⟩

def tagsOptions : Options := { modelName := " Post ", resourceFile := some "tags" }

theorem tags_report_foretells : ∃ r p, tagsOptions.resourceFile = some "tags" ∧
    Text.trim "tags" = "tags" ∧ Report.make tagsTree "tags" sharedConfig = .ok r ∧
    make tagsTree tagsOptions sharedConfig = .ok p ∧ Foretells sharedConfig "Post" r p ∧
    r.formFields = ["tag_id"] ∧ r.headerFields = ["slug"] ∧ p.arguments = "'post','tags'" := by
  have told : (Report.make tagsTree "tags" sharedConfig).toOption.map (fun r =>
      (r.formFields, r.headerFields, r.formCollections))
        = some (["tag_id"], ["slug"], ["tags"]) := by
    decide +kernel
  have planned : (make tagsTree tagsOptions sharedConfig).toBool = true := by decide +kernel
  have model : Text.trim tagsOptions.modelName = "Post" := by decide +kernel
  have trimmed : Text.trim "tags" = "tags" := by decide +kernel
  obtain ⟨p, made⟩ := ok_of_toBool planned
  cases checked : Report.make tagsTree "tags" sharedConfig with
  | error e =>
    rw [checked] at told
    cases told
  | ok r =>
    simp only [checked, Except.toOption, Option.map_some, Option.some.injEq, Prod.mk.injEq] at told
    obtain ⟨fields, header, collections⟩ := told
    have foretold := (report_foretells_plan (make_ok made).settled rfl trimmed (by decide)).2.1
      r p checked made
    rw [model] at foretold
    refine ⟨r, p, rfl, trimmed, rfl, made, foretold, fields, header, ?_⟩
    rw [foretold.arguments, collections]
    decide +kernel

end Plan

end BladeForm
