import BladeForm.Proofs.Plan.Report
import BladeForm.Proofs.Resource.Acceptance

/-!
What the warnings of a report say. Relation, control, options and visibility of a field could earn
it more than one warning, but it gets one at most: where the control of a hidden relation is no
selector, only that is told. A warning stands in a report exactly if its field earns it, in the
order of the fields, and the messages tell which warnings there are.
-/
namespace BladeForm

theorem Control.caption_inj {c d : Control} (same : c.caption = d.caption) : c = d := by
  revert same
  cases c <;> cases d <;> decide

namespace Warning

def field? : Warning → Option String
  | .controlIgnored field _ => some field
  | .relationHidden field => some field
  | .nothingToSelect field => some field
  | .emptyForm => none

def opening : Warning → String
  | .controlIgnored _ _ => "Field '"
  | .relationHidden _ => "Relation on '"
  | .nothingToSelect _ => "Select field '"
  | .emptyForm => "No field is visible on the form"

def ending : Warning → String
  | .controlIgnored _ control =>
    "' declares html-type " ++ control.caption ++ " but renders as a relation selector"
  | .relationHidden _ => "' is hidden on the form and is not passed to the view"
  | .nothingToSelect _ => "' has neither options nor a relation"
  | .emptyForm => ""

theorem message_parts {w : Warning} {field : String} (about : w.field? = some field) :
    w.message = w.opening ++ field ++ w.ending := by
  unfold message ending
  cases w with
  | emptyForm => cases about
  | _ =>
    cases about
    simp only [opening, toString, String.append_assoc]

theorem ending_quote {w : Warning} {field : String} (about : w.field? = some field) :
    ∃ rest, w.ending.toList = '\'' :: rest ∧ '\'' ∉ rest := by
  unfold ending
  cases w with
  | controlIgnored field control =>
    refine ⟨" declares html-type ".toList ++ control.caption.toList
      ++ " but renders as a relation selector".toList, ?_, ?_⟩
    · simp only [String.toList_append]
      rfl
    · cases control <;> decide
  | relationHidden field =>
    exact ⟨" is hidden on the form and is not passed to the view".toList, by simp, by decide⟩
  | nothingToSelect field =>
    exact ⟨" has neither options nor a relation".toList, by simp, by decide⟩
  | emptyForm => cases about

theorem ending_inj {field : String} {c d : Control}
    (same : (controlIgnored field c).ending = (controlIgnored field d).ending) : c = d := by
  unfold ending at same
  exact Control.caption_inj ((String.append_right_inj _).1 ((String.append_left_inj _).1 same))

/-- Messages about fields without a quote in their names are different for different warnings. -/
theorem message_inj {w v : Warning} (plain : ∀ field ∈ w.field?, '\'' ∉ field.toList)
    (same : w.message = v.message) : w = v := by
  have initial : w.initial = v.initial := by
    have first := message_initial w
    rw [same, message_initial] at first
    exact (Option.some.inj first).symm
  have opening : w.opening = v.opening := by
    cases w <;> cases v <;> first | rfl | simp [Warning.initial] at initial
  have pieces : ∀ {a b : String}, w.field? = some a → v.field? = some b →
      a = b ∧ w.ending = v.ending := by
    intro a b about about'
    obtain ⟨rest, ends, free⟩ := ending_quote about
    obtain ⟨rest', ends', _⟩ := ending_quote about'
    have text := congrArg String.toList same
    rw [message_parts about, message_parts about', opening] at text
    simp only [String.toList_append, List.append_assoc, List.append_cancel_left_eq, ends, ends',
      List.append_cons_inj_of_notMem (plain a about) free] at text
    refine ⟨String.toList_inj.1 text.1, String.toList_inj.1 ?_⟩
    rw [ends, ends', text.2.2]
  cases w with
  | controlIgnored a c =>
    cases v with
    | controlIgnored b d =>
      obtain ⟨rfl, ending⟩ := pieces rfl rfl
      rw [ending_inj ending]
    | _ => simp [Warning.initial] at initial
  | relationHidden a =>
    cases v with
    | relationHidden b => rw [(pieces rfl rfl).1]
    | _ => simp [Warning.initial] at initial
  | nothingToSelect a =>
    cases v with
    | nothingToSelect b => rw [(pieces rfl rfl).1]
    | _ => simp [Warning.initial] at initial
  | emptyForm =>
    cases v with
    | emptyForm => rfl
    | _ => simp [Warning.initial] at initial

end Warning

/-- What earns a field a warning. That its control is of no use counts before all else. -/
inductive Field.Earns (f : Field) : Warning → Prop where
  | ignored : f.relation ≠ none → f.control ≠ .select →
      f.Earns (.controlIgnored f.name f.control)
  | hidden : f.relation ≠ none → f.control = .select → f.isOn .form = false →
      f.Earns (.relationHidden f.name)
  | empty : f.relation = none → f.control = .select → f.options = [] →
      f.Earns (.nothingToSelect f.name)

theorem Field.warning?_iff {f : Field} {w : Warning} : f.warning? = some w ↔ f.Earns w := by
  rw [warning?]
  constructor
  · intro warned
    split at warned
    · next related =>
      have relation : f.relation ≠ none := by simp [related]
      split_ifs at warned with control hidden
      · cases warned
        exact .ignored relation control
      · cases warned
        exact .hidden relation (not_not.1 control) (by simpa using hidden)
    · next unrelated =>
      split_ifs at warned with empty
      cases warned
      simp only [Bool.and_eq_true, decide_eq_true_eq, List.isEmpty_iff] at empty
      exact .empty unrelated empty.1 empty.2
  · intro earned
    cases earned with
    | ignored relation control =>
      obtain ⟨r, related⟩ := Option.ne_none_iff_exists'.1 relation
      simp [related, control]
    | hidden relation control hidden =>
      obtain ⟨r, related⟩ := Option.ne_none_iff_exists'.1 relation
      simp [related, control, hidden]
    | empty unrelated control options => simp [unrelated, control, options]

theorem Field.earns_field {f : Field} {w : Warning} (earned : f.Earns w) :
    w.field? = some f.name := by
  cases earned <;> rfl

namespace Report

theorem mem_warnings {resource : Resource} {w : Warning} : w ∈ (ofResource resource).warnings ↔
    (∃ f ∈ resource.fields, f.Earns w) ∨ w = .emptyForm ∧ resource.hasFieldsOn .form = false := by
  have form : w ∈ (if resource.hasFieldsOn .form then [] else [Warning.emptyForm]) ↔
      w = .emptyForm ∧ resource.hasFieldsOn .form = false := by
    cases resource.hasFieldsOn .form <;> simp
  rw [ofResource, List.mem_append, List.mem_filterMap, form]
  simp only [Field.warning?_iff]

theorem message_told {resource : Resource} (sound : Resource.IsSound resource.fields) {f : Field}
    (member : f ∈ resource.fields) {w : Warning} (about : w.field? = some f.name) :
    w.message ∈ (ofResource resource).warnings.map Warning.message ↔ f.Earns w := by
  constructor
  · intro told
    obtain ⟨v, given, same⟩ := List.mem_map.1 told
    have plain : ∀ field ∈ w.field?, '\'' ∉ field.toList := by
      intro field named
      rw [about, Option.mem_some] at named
      subst named
      exact Language.identifier_free (sound.names f member) (by decide)
    obtain rfl := Warning.message_inj plain same.symm
    rcases mem_warnings.1 given with ⟨g, among, earned⟩ | ⟨rfl, _⟩
    · have name : f.name = g.name :=
        Option.some.inj (about.symm.trans (Field.earns_field earned))
      rwa [List.inj_on_of_nodup_map sound.distinct member among name]
    · cases about
  · intro earned
    exact List.mem_map_of_mem (mem_warnings.2 (Or.inl ⟨f, member, earned⟩))

/-- What the messages of a report say about the fields of a resource, and that they say nothing
    else. -/
structure Tells (resource : Resource) (messages : List String) : Prop where
  hidden : ∀ f ∈ resource.fields, (Warning.relationHidden f.name).message ∈ messages ↔
    f.relation ≠ none ∧ f.isOn .form = false ∧ f.control = .select
  ignored : ∀ f ∈ resource.fields, ∀ c : Control,
    (Warning.controlIgnored f.name c).message ∈ messages ↔
      f.relation ≠ none ∧ c ≠ .select ∧ f.control = c
  empty : ∀ f ∈ resource.fields, (Warning.nothingToSelect f.name).message ∈ messages ↔
    f.control = .select ∧ f.options = [] ∧ f.relation = none
  only : ∀ m ∈ messages, (∃ f ∈ resource.fields, ∃ w, f.Earns w ∧ m = w.message) ∨
    m = Warning.emptyForm.message ∧ resource.hasFieldsOn .form = false

theorem ofResource_tells {resource : Resource} (sound : Resource.IsSound resource.fields) :
    Tells resource ((ofResource resource).warnings.map Warning.message) where
  hidden f member := by
    rw [message_told sound member rfl]
    constructor
    · rintro ⟨_⟩
      exact ⟨‹_›, ‹_›, ‹_›⟩
    · rintro ⟨relation, off, control⟩
      exact .hidden relation control off
  ignored f member c := by
    rw [message_told sound member rfl]
    constructor
    · rintro ⟨_⟩
      exact ⟨‹_›, ‹_›, rfl⟩
    · rintro ⟨relation, other, rfl⟩
      exact .ignored relation other
  empty f member := by
    rw [message_told sound member rfl]
    constructor
    · rintro ⟨_⟩
      exact ⟨‹_›, ‹_›, ‹_›⟩
    · rintro ⟨control, options, unrelated⟩
      exact .empty unrelated control options
  only m told := by
    obtain ⟨w, given, rfl⟩ := List.mem_map.1 told
    rcases mem_warnings.1 given with ⟨f, member, earned⟩ | ⟨rfl, bare⟩
    · exact Or.inl ⟨f, member, w, earned, rfl⟩
    · exact Or.inr ⟨rfl, bare⟩

theorem warnings_ordered (resource : Resource) :
    ((ofResource resource).warnings.filterMap Warning.field?).Sublist
      (resource.fields.map (·.name)) := by
  have form : (if resource.hasFieldsOn .form then [] else [Warning.emptyForm]).filterMap
      Warning.field? = [] := by
    cases resource.hasFieldsOn .form <;> rfl
  rw [ofResource, List.filterMap_append, form, List.append_nil]
  induction resource.fields with
  | nil => exact List.Sublist.slnil
  | cons f fields ih =>
    rw [List.filterMap_cons, List.map_cons]
    split
    · exact ih.cons _
    · next w warned =>
      rw [List.filterMap_cons, Field.earns_field (Field.warning?_iff.1 warned)]
      exact ih.cons_cons _

/-- The two warnings about relations, told by visibility and control alone: one where the field is
    hidden, the other where it shows with another control. -/
structure Separates (f : Field) (messages : List String) : Prop where
  hidden : (Warning.relationHidden f.name).message ∈ messages ↔
    f.relation ≠ none ∧ f.isOn .form = false
  ignored : (∃ c, (Warning.controlIgnored f.name c).message ∈ messages) ↔
    f.relation ≠ none ∧ f.isOn .form = true ∧ f.control ≠ .select

theorem separates_iff {resource : Resource} {messages : List String}
    (tells : Tells resource messages) {f : Field} (member : f ∈ resource.fields) :
    Separates f messages ↔ ¬ (f.relation ≠ none ∧ f.isOn .form = false ∧ f.control ≠ .select) := by
  constructor
  · rintro ⟨hidden, _⟩ ⟨relation, off, control⟩
    rw [tells.hidden f member] at hidden
    exact control (hidden.2 ⟨relation, off⟩).2.2
  · intro either
    refine ⟨?_, ?_⟩
    · rw [tells.hidden f member]
      constructor
      · rintro ⟨relation, off, _⟩
        exact ⟨relation, off⟩
      · rintro ⟨relation, off⟩
        exact ⟨relation, off, not_not.1 fun control => either ⟨relation, off, control⟩⟩
    · simp only [tells.ignored f member]
      constructor
      · rintro ⟨c, relation, control, rfl⟩
        refine ⟨relation, ?_, control⟩
        rw [← Bool.not_eq_false]
        exact fun off => either ⟨relation, off, control⟩
      · rintro ⟨relation, _, control⟩
        exact ⟨_, relation, control, rfl⟩

/-- Every resource that loads gets a report. Its warnings follow the order of the fields and are
    those that the fields earn. So visibility and control tell the two warnings about a relation
    apart exactly where a hidden relation has the control of relations. -/
theorem warnings_told_iff {t : Tree} {name : String} {c : Config} {resource : Resource}
    (loaded : Resource.load t name c.paths.resourceFiles none = .ok resource) :
    ∃ report, make t name c = .ok report ∧
      Tells resource (report.warnings.map Warning.message) ∧
      (resource.fields.map (·.name)).Nodup ∧
      (report.warnings.filterMap Warning.field?).Sublist (resource.fields.map (·.name)) ∧
      ∀ f ∈ resource.fields, Separates f (report.warnings.map Warning.message) ↔
        ¬ (f.relation ≠ none ∧ f.isOn .form = false ∧ f.control ≠ .select) := by
  have sound := Resource.load_sound loaded
  have tells := ofResource_tells sound
  exact ⟨_, make_ok.2 ⟨resource, loaded, rfl⟩, tells, sound.distinct, warnings_ordered resource,
    fun f member => separates_iff tells member⟩

def tagText : String :=
  "[\x7b\"name\":\"owner_id\",\"is-on-form\":false,"
    ++ "\"foreign-relation\":\x7b\"name\":\"owner\"\x7d\x7d,"
    ++ "\x7b\"name\":\"tag_id\",\"html-type\":\"text\",\"is-on-form\":false,"
    ++ "\"foreign-relation\":\x7b\"name\":\"tag\"\x7d\x7d]"

def hiddenField (name : String) (control : Control) (relation : String) : Field :=
  { Field.ofName name control with
    visibility := { form := false }, relation := some { name := relation } }

def ownerField : Field := hiddenField "owner_id" .select "owner"

def tagField : Field := hiddenField "tag_id" .text "tag"

def tagResource : Resource := ⟨⟨"post.json"⟩, [ownerField, tagField], none⟩

theorem tag_loaded : Resource.load (Resource.fileTree tagText) "post"
    Plan.sharedConfig.paths.resourceFiles none = .ok tagResource :=
  ok_of_toOption (by decide +kernel)

theorem owner_told : Resource.load (Resource.fileTree tagText) "post"
      Plan.sharedConfig.paths.resourceFiles none = .ok tagResource ∧
    ∃ report, make (Resource.fileTree tagText) "post" Plan.sharedConfig = .ok report ∧
      report.warnings =
        [.relationHidden "owner_id", .controlIgnored "tag_id" .text, .emptyForm] ∧
      Tells tagResource (report.warnings.map Warning.message) ∧
      Separates ownerField (report.warnings.map Warning.message) := by
  obtain ⟨report, made, tells, _, _, separates⟩ := warnings_told_iff tag_loaded
  refine ⟨tag_loaded, report, made, ?_, tells, (separates ownerField (by decide)).2 (by decide)⟩
  obtain ⟨resource, again, rfl⟩ := make_ok.1 made
  rw [tag_loaded] at again
  cases again
  decide

/-- A hidden relation with a text control is told to render as a selector, not to be hidden. -/
theorem tag_untold :
    ∃ report, make (Resource.fileTree tagText) "post" Plan.sharedConfig = .ok report ∧
      tagField ∈ tagResource.fields ∧ tagField.relation ≠ none ∧ tagField.isOn .form = false ∧
      "Relation on 'tag_id' is hidden on the form and is not passed to the view"
        ∉ report.warnings.map Warning.message ∧
      "Field 'tag_id' declares html-type Text but renders as a relation selector"
        ∈ report.warnings.map Warning.message ∧
      ¬ Separates tagField (report.warnings.map Warning.message) := by
  have made := make_ok.2 ⟨tagResource, tag_loaded, rfl⟩
  have tells := ofResource_tells (Resource.load_sound tag_loaded)
  have member : tagField ∈ tagResource.fields := by decide
  refine ⟨_, made, member, by decide, by decide, by decide +kernel, by decide +kernel, ?_⟩
  rw [separates_iff tells member, not_not]
  decide

end Report

end BladeForm
