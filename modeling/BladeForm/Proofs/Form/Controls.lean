import BladeForm.Proofs.Form.Markup
import BladeForm.Proofs.Form.Tags
import BladeForm.Proofs.Tree

/-!
The controls of a form, found again in its markup by their ids. Reading the attribute wherever its
key stands gives the names of the visible fields in their order, and at each of these places
stands a control that is sent with the form under the same name.
-/
namespace BladeForm
open Text Name

def idOpening : List Char := " id=\"".toList

def idsIn : List Char → List (List Char)
  | [] => []
  | c :: cs =>
    match after? idOpening (c :: cs) with
    | some rest => rest.takeWhile (· ≠ '"') :: idsIn cs
    | none => idsIn cs

theorem idsIn_skip {c : Char} {cs : List Char} (absent : ¬ idOpening <+: c :: cs) :
    idsIn (c :: cs) = idsIn cs := by
  rw [idsIn, after?_none_iff.2 absent]

theorem idsIn_other {c : Char} (visible : c ≠ ' ') (cs : List Char) : idsIn (c :: cs) = idsIn cs :=
  idsIn_skip fun ahead => visible (List.cons_prefix_cons.1 ahead).1.symm

theorem idsIn_quiet {xs : List Char} (free : '"' ∉ xs) {c : Char} (other : c ∉ idOpening)
    (ys : List Char) : idsIn (xs ++ c :: ys) = idsIn ys := by
  induction xs with
  | nil => exact idsIn_other (by rintro rfl; exact other (by decide)) ys
  | cons x xs ih =>
    rw [List.cons_append, idsIn_skip, ih fun member => free (List.mem_cons_of_mem x member)]
    rw [← List.cons_append, begins_break other]
    exact fun ahead => free (ahead.subset (by decide))

theorem idsIn_free {xs : List Char} (free : '"' ∉ xs) : idsIn xs = [] := by
  induction xs with
  | nil => rfl
  | cons x xs ih =>
    rw [idsIn_skip fun ahead => free (ahead.subset (by decide)),
      ih fun member => free (List.mem_cons_of_mem x member)]

theorem idsIn_value {xs : List Char} (free : '=' ∉ xs) (ys : List Char) :
    idsIn (xs ++ '"' :: ys) = idsIn ys := by
  induction xs with
  | nil => exact idsIn_other (by decide) ys
  | cons x xs ih =>
    rw [List.cons_append, idsIn_skip, ih fun member => free (List.mem_cons_of_mem x member)]
    intro ahead
    have before : [' ', 'i', 'd', '='] <+: x :: xs ++ '"' :: ys :=
      List.IsPrefix.trans (by decide) ahead
    rw [begins_break (by decide)] at before
    exact free (before.subset (by decide))

theorem idsIn_word {key : List Char} (visible : ' ' ∉ key) (ys : List Char) :
    idsIn (key ++ ys) = idsIn ys := by
  induction key with
  | nil => rfl
  | cons c cs ih =>
    simp only [List.mem_cons, not_or] at visible
    rw [List.cons_append, idsIn_other (Ne.symm visible.1), ih visible.2]

def Unmarked (cs : List Char) : Prop := '"' ∉ cs ∧ '=' ∉ cs

instance (cs : List Char) : Decidable (Unmarked cs) := inferInstanceAs (Decidable (_ ∧ _))

namespace Tag
variable {t : Tag}

@[simp] theorem value?_nil (element : String) (rest : List Char) (key : String) :
    value? ⟨element, [], rest⟩ key = none := rfl

@[simp] theorem value?_cons (element : String) (name : String) (value : List Char)
    (as : List (String × List Char)) (rest : List Char) (key : String) :
    value? ⟨element, (name, value) :: as, rest⟩ key
      = if key = name then some value else value? ⟨element, as, rest⟩ key :=
  lookup_cons_if name key value as

/-- Its attributes read as they were written, also when the text around them is not known. -/
structure IsLegible (t : Tag) : Prop where
  spelled : t.isSpelled = true
  values : ∀ a ∈ t.attributes, Unmarked a.2
  rest : '"' ∉ t.rest

def ids (t : Tag) : List (List Char) := (t.attributes.filter (·.1 = "id")).map (·.2)

/-- The key of an id is all there is between the blank and the sign of equality. -/
theorem opening_iff {key : List Char} (free : '=' ∉ key) (ys : List Char) :
    idOpening <+: ' ' :: (key ++ '=' :: '"' :: ys) ↔ key = ['i', 'd'] := by
  have spelled : idOpening = [' ', 'i', 'd', '=', '"'] := by decide
  rw [spelled]
  rcases key with _ | ⟨a, _ | ⟨b, _ | ⟨c, rest⟩⟩⟩
  · simp
  · simp
  · simp [eq_comm]
  · simp only [List.mem_cons, not_or] at free
    simp [free]

theorem idsIn_pair {a : String × List Char} (key : isWord a.1 = true) (value : Unmarked a.2)
    (ys : List Char) :
    idsIn (pair a ++ ys) = (if a.1 = "id" then [a.2] else []) ++ idsIn ys := by
  have text : pair a ++ ys = ' ' :: (a.1.toList ++ '=' :: '"' :: (a.2 ++ '"' :: ys)) := by
    simp [pair]
  have later : idsIn (a.1.toList ++ '=' :: '"' :: (a.2 ++ '"' :: ys))
      = idsIn ys := by
    rw [idsIn_word (word_free key (by decide) (by decide)), idsIn_other (by decide),
      idsIn_other (by decide), idsIn_value value.2]
  have opening := @opening_iff a.1.toList (word_free key (by decide) (by decide)) (a.2 ++ '"' :: ys)
  rw [text]
  by_cases same : a.1 = "id"
  · have ahead : after? idOpening (' ' :: (a.1.toList ++ '=' :: '"' :: (a.2 ++ '"' :: ys)))
        = some (a.2 ++ '"' :: ys) := by
      rw [after?_iff, same]
      rfl
    have value : (a.2 ++ '"' :: ys).takeWhile (· ≠ '"') = a.2 := by
      rw [List.takeWhile_append_of_pos]
      · simp
      · intro c member
        exact decide_eq_true (ne_of_mem_of_not_mem member value.1)
    rw [idsIn, ahead, if_pos same]
    dsimp only
    rw [value, later, List.singleton_append]
  · have absent : ¬ idOpening <+: ' ' :: (a.1.toList ++ '=' :: '"' :: (a.2 ++ '"' :: ys)) := by
      rw [opening]
      exact fun key => same (String.toList_inj.1 key)
    rw [idsIn_skip absent, if_neg same, later, List.nil_append]

theorem idsIn_pairs {as : List (String × List Char)} (keys : ∀ a ∈ as, isWord a.1 = true)
    (values : ∀ a ∈ as, Unmarked a.2) (ys : List Char) :
    idsIn (as.flatMap pair ++ ys)
      = (as.filter (·.1 = "id")).map (·.2) ++ idsIn ys := by
  induction as with
  | nil => rfl
  | cons a as ih =>
    rw [List.forall_mem_cons] at keys values
    rw [List.flatMap_cons, List.append_assoc, idsIn_pair keys.1 values.1, ih keys.2 values.2]
    by_cases same : a.1 = "id"
    · simp [same]
    · simp [same]

theorem idsIn_text (legible : t.IsLegible) (ys : List Char) :
    idsIn (t.text ++ ys) = t.ids ++ idsIn ys := by
  obtain ⟨word, keys⟩ := Bool.and_eq_true_iff.1 legible.spelled
  have split : t.text ++ ys
      = '<' :: (t.element.toList ++ (t.attributes.flatMap pair ++ (t.rest ++ '>' :: ys))) := by
    simp [text]
  rw [split, idsIn_other (by decide), idsIn_word (word_free word (by decide) (by decide)),
    idsIn_pairs (List.all_eq_true.1 keys) legible.values,
    idsIn_quiet legible.rest (by decide)]
  rfl

theorem legible_map {turn : List Char → List Char} (reflows : Reflows turn)
    (legible : t.IsLegible) : (t.map turn).IsLegible where
  spelled := (isSpelled_map turn t).trans legible.spelled
  values := by
    simp only [map, List.forall_mem_map]
    exact fun a member => ⟨reflows.notMem (by decide) (legible.values a member).1,
      reflows.notMem (by decide) (legible.values a member).2⟩
  rest := reflows.notMem (by decide) legible.rest

theorem ids_map (turn : List Char → List Char) (t : Tag) : (t.map turn).ids = t.ids.map turn := by
  simp [ids, map, List.filter_map, Function.comp_def]

end Tag

structure Part.IsLegible (p : Part) : Prop where
  before : '"' ∉ p.before
  tag : p.tag.IsLegible

theorem idsIn_parts {ps : List Part} (legible : ∀ p ∈ ps, p.IsLegible) (ys : List Char) :
    idsIn (ps.flatMap Part.text ++ ys) = ps.flatMap (·.tag.ids) ++ idsIn ys := by
  induction ps with
  | nil => rfl
  | cons p ps ih =>
    rw [List.forall_mem_cons] at legible
    have before : idsIn (p.before ++ (p.tag.text ++ (ps.flatMap Part.text ++ ys)))
        = idsIn (p.tag.text ++ (ps.flatMap Part.text ++ ys)) := by
      rw [Tag.text, List.cons_append, idsIn_quiet legible.1.before (by decide),
        idsIn_other (by decide)]
    rw [List.flatMap_cons, Part.text, List.append_assoc, List.append_assoc, before,
      Tag.idsIn_text legible.1.tag, ih legible.2, List.flatMap_cons, List.append_assoc]

def Part.IsQuiet (p : Part) : Prop :=
  '"' ∉ p.before ∧ (∀ a ∈ p.tag.attributes, Unmarked a.2) ∧ '"' ∉ p.tag.rest

namespace Row
variable {r : Row}

def parts (r : Row) : List Part := ⟨[], r.first⟩ :: r.more

def IsLegible (r : Row) : Prop := ∀ p ∈ r.parts, p.IsLegible

def ids (r : Row) : List (List Char) := r.parts.flatMap (·.tag.ids)

theorem text_parts (r : Row) : r.text = r.parts.flatMap Part.text := by
  simp [text, parts, Part.text]

theorem idsIn_text (legible : r.IsLegible) (ys : List Char) :
    idsIn (r.text ++ ys) = r.ids ++ idsIn ys := by
  rw [text_parts, idsIn_parts legible, ids]

end Row

def sentTypes : List String := ["text", "email", "number", "password", "date", "hidden", "checkbox"]

/-- An element that is sent with a form under the name of a field, which is its id too. Behind its
    attributes stands nothing but whether a box is ticked. -/
structure Tag.Submits (m : Form) (f : Field) (t : Tag) : Prop where
  element : t.element = "select" ∨ t.element = "textarea" ∨
    t.element = "input" ∧ ∃ type ∈ sentTypes, t.value? "type" = some type.toList
  name : t.value? "name" = some f.name.toList
  id : t.value? "id" = some f.name.toList
  enabled : t.value? "disabled" = none
  rest : t.rest = [] ∨ t.rest = (" " ++ Blade.echo (m.oldValue f ++ " ? 'checked' : ''")).toList

def Field.texts (f : Field) : List String :=
  f.label :: (f.options.flatMap fun o => [o.1, o.2])
    ++ f.relation.toList.flatMap fun r => [r.name, r.displayField]

def Style.classes (s : Style) : List String :=
  [s.groupClass, s.labelClass, s.inputWrapperClass, s.inputClass]

namespace Form
variable {m : Form} {f : Field}

def texts (m : Form) : List String := m.style.classes ++ m.fields.flatMap Field.texts

/-- Names that a form takes over as they are. -/
def outerNames (m : Form) : List String :=
  m.languageFile.toList
    ++ m.fields.flatMap fun f => f.relation.toList.flatMap fun r => r.collection.toList

structure IsLegible (m : Form) : Prop where
  model : isModelName m.model = true
  names : ∀ f ∈ m.fields, isIdentifier f.name = true
  texts : ∀ s ∈ m.texts, Unmarked s.toList
  outer : ∀ s ∈ m.outerNames, '"' ∉ s.toList

theorem unmarked_wordy {cs : List Char} (wordy : IsWordy cs) : Unmarked cs :=
  ⟨fun member => absurd (wordy '"' member) (by decide),
    fun member => absurd (wordy '=' member) (by decide)⟩

section
variable (record : Unmarked m.record.toList) (name : Unmarked f.name.toList)
  (style : Unmarked m.style.inputClass.toList)
include record name

theorem unmarked_old : Unmarked (Blade.echo (m.oldValue f)).toList := by
  unfold Blade.echo oldValue
  simp [toString, Unmarked, record.1, record.2, name.1, name.2]

theorem quiet_selectedIf {expression : String} (quiet : '"' ∉ expression.toList) :
    '"' ∉ (m.selectedIf f expression).toList := by
  unfold selectedIf Blade.echo oldValue
  simp [toString, record.1, name.1, quiet]

theorem quiet_prompt {noun : String} (quiet : '"' ∉ noun.toList) :
    ∀ p ∈ m.promptParts f noun, p.IsQuiet := by
  have selected := quiet_selectedIf record name (by decide : '"' ∉ "''".toList)
  simp only [promptParts, List.forall_mem_cons, Part.IsQuiet]
  refine ⟨⟨by decide, ⟨by decide, by decide, by simp⟩, ?_⟩, ⟨?_, by simp [Tag.closing]⟩, by simp⟩
  · simp [selected]
  · simp [quiet]

theorem quiet_option {before value expression : String} (first : '"' ∉ before.toList)
    (marked : Unmarked value.toList) (quiet : '"' ∉ expression.toList) :
    Part.IsQuiet ⟨before.toList, m.optionTag f value expression⟩ := by
  have selected := quiet_selectedIf record name quiet
  simp [optionTag, Part.IsQuiet, first, marked, selected]

include style

omit record in
theorem quiet_select : Part.IsQuiet ⟨[], m.selectTag f⟩ := by
  simp [selectTag, Part.IsQuiet, style, name]

theorem quiet_input {type : String} (known : Unmarked type.toList) (withValue : Bool) :
    Part.IsQuiet ⟨[], m.inputTag f type withValue⟩ := by
  have value := unmarked_old record name
  cases withValue <;> simp [inputTag, Part.IsQuiet, style, name, known, value]

theorem quiet_optionsRow (label : '"' ∉ f.label.toList)
    (options : ∀ o ∈ f.options, Unmarked o.1.toList ∧ Unmarked o.2.toList) :
    ∀ p ∈ (m.optionsRow f).parts, p.IsQuiet := by
  simp only [optionsRow, Row.parts, List.forall_mem_cons, List.forall_mem_append, List.mem_flatMap]
  refine ⟨quiet_select name style, ⟨quiet_prompt record name
    (free_lowerCase ⟨by decide, by decide⟩ label), ?_⟩, by simp [Part.IsQuiet, Tag.closing]⟩
  rintro p ⟨o, member, inside⟩
  obtain ⟨key, text⟩ := options o member
  rw [optionParts, List.mem_cons, List.mem_singleton] at inside
  rcases inside with rfl | rfl
  · exact quiet_option record name (by decide) key (Php.free_quote (by decide) key.1)
  · simp [Part.IsQuiet, Tag.closing, text.1]

theorem quiet_relationRow {r : Relation} (named : Unmarked r.name.toList)
    (display : '"' ∉ r.displayField.toList) (collection : ∀ c ∈ r.collection, '"' ∉ c.toList) :
    ∀ p ∈ (m.relationRow f r).parts, p.IsQuiet := by
  have quote : IsLow '"' := ⟨by decide, by decide⟩
  have item : Unmarked r.itemVariable.toList :=
    ⟨free_variable quote named.1, free_variable ⟨by decide, by decide⟩ named.2⟩
  have noun : '"' ∉ (lowerCase (title r.name)).toList :=
    free_lowerCase quote (free_title quote named.1 (by decide))
  have loop : '"' ∉ r.collectionName.toList := by
    rw [Relation.collectionName]
    cases given : r.collection with
    | none => exact free_variables quote named.1
    | some c => exact collection c given
  simp only [relationRow, Row.parts, List.forall_mem_cons, List.forall_mem_append]
  refine ⟨quiet_select name style, quiet_prompt record name noun,
    quiet_option record name ?_ ?_ ?_, ?_, by simp [Part.IsQuiet, Tag.closing], by simp⟩
  · simp [toString, loop, item.1]
  · unfold Blade.echo
    simp [toString, Unmarked, item.1, item.2]
  · simp [toString, item.1]
  · unfold Blade.echo
    simp [toString, Part.IsQuiet, Tag.closing, item.1, display]

end

theorem unmarked_record (legible : m.IsLegible) : Unmarked m.record.toList :=
  unmarked_wordy (wordy_record legible.model)

theorem unmarked_style (legible : m.IsLegible) : ∀ s ∈ m.style.classes, Unmarked s.toList :=
  fun s member => legible.texts s (List.mem_append_left _ member)

section
variable (legible : m.IsLegible) (member : f ∈ m.fields)
include legible member

theorem unmarked_name : Unmarked f.name.toList :=
  unmarked_wordy (wordy_identifier (legible.names f member))

theorem unmarked_texts : ∀ s ∈ f.texts, Unmarked s.toList := fun s inside =>
  legible.texts s (List.mem_append_right _ (List.mem_flatMap.2 ⟨f, member, inside⟩))

theorem quiet_controlRow : ∀ p ∈ (m.controlRow f).parts, p.IsQuiet := by
  have record := unmarked_record legible
  have name := unmarked_name legible member
  have style := unmarked_style legible m.style.inputClass (by simp [Style.classes])
  have texts := unmarked_texts legible member
  have old := unmarked_old record name
  rw [controlRow]
  cases related : f.relation with
  | some r =>
    refine quiet_relationRow record name style (texts r.name (by simp [Field.texts, related]))
      (texts r.displayField (by simp [Field.texts, related])).1 fun c given => ?_
    refine legible.outer c (List.mem_append_right _ (List.mem_flatMap.2 ⟨f, member, ?_⟩))
    simpa [related] using given
  | none =>
    cases f.control with
    | select =>
      refine quiet_optionsRow record name style (texts f.label (by simp [Field.texts])).1 ?_
      intro o among
      refine ⟨texts o.1 ?_, texts o.2 ?_⟩
      all_goals
        refine List.mem_append_left _ (List.mem_cons_of_mem _ (List.mem_flatMap.2 ⟨o, among, ?_⟩))
        simp
    | hidden =>
      simp only [Row.parts, hiddenTag, List.forall_mem_cons, Part.IsQuiet]
      exact ⟨⟨by simp, ⟨name, by decide, name, old, by simp⟩, by simp⟩, by simp⟩
    | textarea =>
      simp only [textareaRow, Row.parts, textareaTag, List.forall_mem_cons, Part.IsQuiet]
      exact ⟨⟨by simp, ⟨style, name, by decide, by decide, name, by simp⟩, by simp⟩,
        ⟨old.1, by simp [Tag.closing]⟩, by simp⟩
    | checkbox =>
      have ticked : '"' ∉ (" " ++ Blade.echo (m.oldValue f ++ " ? 'checked' : ''")).toList := by
        unfold Blade.echo oldValue
        simp [toString, record.1, name.1]
      simp only [checkboxRow, Row.parts, unticked, checkboxTag, List.forall_mem_cons, Part.IsQuiet]
      exact ⟨⟨by simp, ⟨name, by decide, by decide, by simp⟩, by simp⟩,
        ⟨by simp, ⟨name, name, by decide, by decide, by simp⟩, ticked⟩, by simp⟩
    | _ =>
      rw [Row.parts, List.forall_mem_singleton]
      exact quiet_input record name style (by decide) _

theorem legible_controlRow : (m.controlRow f).IsLegible := by
  intro p inside
  obtain ⟨before, values, rest⟩ := quiet_controlRow legible member p inside
  refine ⟨before, controlRow_spelled m f p.tag ?_, values, rest⟩
  simpa [Row.tags, Row.parts] using List.mem_map_of_mem (f := Part.tag) inside

theorem legible_group :
    ∀ p ∈ ⟨[], m.groupTag f⟩ :: m.groupHead f ++ groupTail f, p.IsLegible := by
  have name := unmarked_name legible member
  obtain ⟨groupClass, labelClass, wrapperClass, _⟩ :
      Unmarked m.style.groupClass.toList ∧ Unmarked m.style.labelClass.toList ∧
        Unmarked m.style.inputWrapperClass.toList ∧ _ := by
    simpa [Style.classes] using unmarked_style legible
  have opening : Unmarked (m.style.groupClass ++ " "
      ++ Blade.echo s!"$errors->has('{f.name}') ? 'has-error' : ''").toList := by
    unfold Blade.echo
    simp [toString, Unmarked, groupClass.1, groupClass.2, name.1, name.2]
  have label : '"' ∉ (m.label f).toList := by
    rw [label]
    cases given : m.languageFile with
    | none => exact (unmarked_texts legible member f.label (by simp [Field.texts])).1
    | some file =>
      have quiet := legible.outer file (by simp [outerNames, given])
      unfold Blade.echo
      simp [toString, name.1, quiet]
  have quiet : ∀ p ∈ ⟨[], m.groupTag f⟩ :: m.groupHead f ++ groupTail f, p.IsQuiet := by
    simp only [groupTag, groupHead, groupTail, List.cons_append, List.nil_append,
      List.forall_mem_cons, Part.IsQuiet, Tag.closing]
    refine ⟨⟨by simp, ⟨opening, by simp⟩, by simp⟩,
      ⟨by simp, ⟨name, labelClass, by simp⟩, by simp⟩, ⟨label, by simp⟩,
      ⟨by simp, ⟨wrapperClass, by simp⟩, by simp⟩, ⟨?_, ⟨by decide, by simp⟩, by simp⟩, by simp,
      by simp, by simp, by simp⟩
    simp [toString, name.1]
  intro p inside
  obtain ⟨before, values, rest⟩ := quiet p inside
  exact ⟨before, group_spelled m f p inside, values, rest⟩

theorem legible_fieldRow : (m.fieldRow f).IsLegible := by
  have control := legible_controlRow legible member
  have group := legible_group legible member
  have reflows := reflows_moved 8
  rw [fieldRow]
  split
  · exact control
  · simp only [Row.IsLegible, Row.parts, List.forall_mem_cons, List.cons_append,
      List.forall_mem_append] at control group
    simp only [groupRow, Row.map, Row.IsLegible, Row.parts, List.forall_mem_cons,
      List.forall_mem_map, List.forall_mem_append]
    refine ⟨group.1, group.2.1, ⟨by simp, Tag.legible_map reflows control.1.tag⟩, ?_, group.2.2⟩
    intro p inside
    exact ⟨reflows.notMem (by decide) (control.2 p inside).before,
      Tag.legible_map reflows (control.2 p inside).tag⟩

end

theorem prompt_noId (m : Form) (f : Field) (noun : String) :
    ∀ p ∈ m.promptParts f noun, p.tag.ids = [] := by
  simp only [promptParts, List.forall_mem_cons]
  exact ⟨by simp [Tag.ids], rfl, by simp⟩

theorem option_noId (m : Form) (f : Field) (value text : String) :
    ∀ p ∈ m.optionParts f value text, p.tag.ids = [] := by
  simp only [optionParts, List.forall_mem_cons]
  exact ⟨by simp [optionTag, Tag.ids], rfl, by simp⟩

theorem optionsRow_noId (m : Form) (f : Field) :
    ∀ p ∈ (m.optionsRow f).more, p.tag.ids = [] := by
  simp only [optionsRow, List.forall_mem_append, List.mem_flatMap]
  refine ⟨⟨prompt_noId m f _, ?_⟩, by simp [Tag.ids, Tag.closing]⟩
  rintro p ⟨o, _, inside⟩
  exact option_noId m f o.1 o.2 p inside

theorem relationRow_noId (m : Form) (f : Field) (r : Relation) :
    ∀ p ∈ (m.relationRow f r).more, p.tag.ids = [] := by
  simp only [relationRow, List.forall_mem_append, List.forall_mem_cons]
  exact ⟨prompt_noId m f _, by simp [optionTag, Tag.ids], rfl, rfl, by simp⟩

theorem select_submits (m : Form) (f : Field) : (m.selectTag f).Submits m f where
  element := Or.inl rfl
  name := by simp [selectTag]
  id := by simp [selectTag]
  enabled := by simp [selectTag]
  rest := Or.inl rfl

theorem hidden_submits (m : Form) (f : Field) : (m.hiddenTag f).Submits m f where
  element := Or.inr (Or.inr ⟨rfl, "hidden", by decide,
    by simp [hiddenTag]⟩)
  name := by simp [hiddenTag]
  id := by simp [hiddenTag]
  enabled := by simp [hiddenTag]
  rest := Or.inl rfl

theorem textarea_submits (m : Form) (f : Field) : (m.textareaTag f).Submits m f where
  element := Or.inr (Or.inl rfl)
  name := by simp [textareaTag]
  id := by simp [textareaTag]
  enabled := by simp [textareaTag]
  rest := Or.inl rfl

theorem checkbox_submits (m : Form) (f : Field) : (m.checkboxTag f).Submits m f where
  element := Or.inr (Or.inr ⟨rfl, "checkbox", by decide,
    by simp [checkboxTag]⟩)
  name := by simp [checkboxTag]
  id := by simp [checkboxTag]
  enabled := by simp [checkboxTag]
  rest := Or.inr rfl

theorem input_submits (m : Form) (f : Field) {type : String} (sent : type ∈ sentTypes)
    (withValue : Bool) : (m.inputTag f type withValue).Submits m f where
  element := Or.inr (Or.inr ⟨rfl, type, sent,
    by simp [inputTag]⟩)
  name := by simp [inputTag]
  id := by simp [inputTag]
  enabled := by cases withValue <;> simp [inputTag]
  rest := Or.inl rfl

end Form

/-- Exactly one tag of the row has an id, and it is the one that is sent for the field. -/
structure Row.Sends (m : Form) (f : Field) (r : Row) (before : List Part) (control : Part)
    (after : List Part) : Prop where
  split : r.parts = before ++ control :: after
  others : ∀ p ∈ before ++ after, p.tag.ids = []
  ids : control.tag.ids = [f.name.toList]
  submits : control.tag.Submits m f

theorem Row.sends_first {m : Form} {f : Field} {t : Tag} {more : List Part}
    (others : ∀ p ∈ more, p.tag.ids = []) (ids : t.ids = [f.name.toList])
    (submits : t.Submits m f) : Row.Sends m f ⟨t, more⟩ [] ⟨[], t⟩ more :=
  ⟨rfl, others, ids, submits⟩

namespace Form
variable {m : Form} {f : Field}

theorem input_sends (m : Form) (f : Field) {type : String} (sent : type ∈ sentTypes)
    (withValue : Bool) : ∃ before control after,
      Row.Sends m f ⟨m.inputTag f type withValue, []⟩ before control after := by
  refine ⟨_, _, _, Row.sends_first (by simp) ?_ (input_submits m f sent withValue)⟩
  cases withValue <;> simp [inputTag, Tag.ids]

theorem controlRow_sends (m : Form) (f : Field) : ∃ before control after,
    (m.controlRow f).Sends m f before control after := by
  rw [controlRow]
  cases f.relation with
  | some r =>
    exact ⟨_, _, _, Row.sends_first (relationRow_noId m f r) (by simp [selectTag, Tag.ids])
      (select_submits m f)⟩
  | none =>
    cases f.control with
    | select =>
      exact ⟨_, _, _, Row.sends_first (optionsRow_noId m f) (by simp [selectTag, Tag.ids])
        (select_submits m f)⟩
    | hidden =>
      exact ⟨_, _, _, Row.sends_first (by simp) (by simp [hiddenTag, Tag.ids])
        (hidden_submits m f)⟩
    | textarea =>
      exact ⟨_, _, _, Row.sends_first (by simp [Tag.closing, Tag.ids])
        (by simp [textareaTag, Tag.ids]) (textarea_submits m f)⟩
    | checkbox =>
      have zero : (unticked f).ids = [] := by
        unfold unticked Tag.ids
        simp
      exact ⟨[⟨[], unticked f⟩], ⟨['\n'], m.checkboxTag f⟩, [], rfl, by simpa using zero,
        by simp [checkboxTag, Tag.ids], checkbox_submits m f⟩
    | _ => exact input_sends m f (by decide) _

theorem word_noEnding {cs : List Char} (wordy : IsWordy cs) : '\r' ∉ cs ∧ '\n' ∉ cs :=
  ⟨fun member => absurd (wordy '\r' member) (by decide),
    fun member => absurd (wordy '\n' member) (by decide)⟩

theorem submits_map {turn : List Char → List Char} (reflows : Reflows turn)
    (record : IsWordy m.record.toList) (name : IsWordy f.name.toList) {t : Tag}
    (submits : t.Submits m f) : (t.map turn).Submits m f := by
  have named := reflows.same (word_noEnding name)
  have value (key : String) : (t.map turn).value? key = (t.value? key).map turn := by
    simp only [Tag.value?, Tag.map]
    induction t.attributes with
    | nil => rfl
    | cons a as ih =>
      rw [List.map_cons, List.lookup_cons, List.lookup_cons, ih]
      split <;> rfl
  refine ⟨?_, ?_, ?_, ?_, ?_⟩
  · refine submits.element.imp_right (Or.imp_right ?_)
    rintro ⟨element, type, sent, given⟩
    have kept : ∀ type ∈ sentTypes, '\r' ∉ type.toList ∧ '\n' ∉ type.toList := by decide
    refine ⟨element, type, sent, ?_⟩
    rw [value, given, Option.map_some, reflows.same (kept type sent)]
  · rw [value, submits.name, Option.map_some, named]
  · rw [value, submits.id, Option.map_some, named]
  · rw [value, submits.enabled, Option.map_none]
  · refine submits.rest.imp (fun none => ?_) fun ticked => ?_
    · rw [Tag.map, none, reflows.nil]
    · obtain ⟨carriage, feed⟩ := word_noEnding record
      obtain ⟨carriage', feed'⟩ := word_noEnding name
      rw [Tag.map, ticked]
      refine reflows.same ?_
      unfold Blade.echo oldValue
      simp [toString, carriage, feed, carriage', feed']

theorem groupRow_sends (record : IsWordy m.record.toList) (name : IsWordy f.name.toList) {r : Row}
    (sends : ∃ before control after, r.Sends m f before control after) :
    ∃ before control after, (m.groupRow f r).Sends m f before control after := by
  obtain ⟨before, control, after, split, others, ids, submits⟩ := sends
  have reflows := reflows_moved 8
  have noId {p : Part} (none : p.tag.ids = []) : (p.map (moved 8)).tag.ids = [] := by
    rw [Part.map, Tag.ids_map, none, List.map_nil]
  have sent : (control.map (moved 8)).tag.ids = [f.name.toList] := by
    rw [Part.map, Tag.ids_map, ids, List.map_singleton,
      reflows.same (word_noEnding name)]
  have moves := submits_map reflows record name submits
  have around : ∀ p ∈ ⟨[], m.groupTag f⟩ :: m.groupHead f ++ groupTail f, p.tag.ids = [] := by
    simp only [groupTag, groupHead, groupTail, List.cons_append, List.nil_append,
      List.forall_mem_cons]
    exact ⟨by simp [Tag.ids], by simp [Tag.ids], rfl, by simp [Tag.ids], by simp [Tag.ids], rfl,
      rfl, rfl, by simp⟩
  rw [List.forall_mem_append] at around others
  cases before with
  | nil =>
    obtain ⟨rfl, rfl⟩ := List.cons.inj split
    refine ⟨⟨[], m.groupTag f⟩ :: m.groupHead f, ⟨"\n        ".toList, r.first.map (moved 8)⟩,
      r.more.map (Part.map (moved 8)) ++ groupTail f, rfl, ?_, sent, moves⟩
    rw [List.forall_mem_append, List.forall_mem_append, List.forall_mem_map]
    exact ⟨around.1, fun p member => noId (others.2 p member), around.2⟩
  | cons first before =>
    obtain ⟨rfl, more⟩ := List.cons.inj split
    rw [List.forall_mem_cons] at others
    refine ⟨⟨[], m.groupTag f⟩ :: m.groupHead f ++ ⟨"\n        ".toList, r.first.map (moved 8)⟩
      :: before.map (Part.map (moved 8)), control.map (moved 8),
      after.map (Part.map (moved 8)) ++ groupTail f, ?_, ?_, sent, moves⟩
    · simp [groupRow, Row.parts, Row.map, more]
    · simp only [List.forall_mem_append, List.forall_mem_map, List.forall_mem_cons] at around ⊢
      exact ⟨⟨around.1, noId others.1.1, fun p member => noId (others.1.2 p member)⟩,
        fun p member => noId (others.2 p member), around.2⟩

theorem fieldRow_sends (legible : m.IsLegible) (member : f ∈ m.fields) :
    ∃ before control after, (m.fieldRow f).Sends m f before control after := by
  have sends := controlRow_sends m f
  rw [fieldRow]
  split
  · exact sends
  · exact groupRow_sends (wordy_record legible.model)
      (wordy_identifier (legible.names f member)) sends

section
variable (legible : m.IsLegible)
include legible

theorem idsIn_fieldRow (member : f ∈ m.fields) (ys : List Char) :
    idsIn ((m.fieldRow f).text ++ ys) = f.name.toList :: idsIn ys := by
  obtain ⟨before, control, after, sends⟩ := fieldRow_sends legible member
  have others := List.forall_mem_append.1 sends.others
  have row : (m.fieldRow f).ids = [f.name.toList] := by
    rw [Row.ids, sends.split, List.flatMap_append, List.flatMap_cons, sends.ids,
      List.flatMap_eq_nil_iff.2 others.1, List.flatMap_eq_nil_iff.2 others.2]
    rfl
  rw [Row.idsIn_text (legible_fieldRow legible member), row, List.singleton_append]

theorem idsIn_earlier {fs : List Field} (members : ∀ f ∈ fs, f ∈ m.fields) (ys : List Char) :
    idsIn ((fs.flatMap fun f => (m.fieldRow f).text ++ ['\n']) ++ ys)
      = fs.map (·.name.toList) ++ idsIn ys := by
  induction fs with
  | nil => rfl
  | cons f fs ih =>
    rw [List.forall_mem_cons] at members
    rw [List.flatMap_cons, List.append_assoc, List.append_assoc, idsIn_fieldRow legible members.1,
      List.singleton_append, idsIn_other (by decide), ih members.2, List.map_cons, List.cons_append]

theorem idsIn_later {fs : List Field} (members : ∀ f ∈ fs, f ∈ m.fields) :
    idsIn (fs.flatMap fun f => '\n' :: (m.fieldRow f).text) = fs.map (·.name.toList) := by
  induction fs with
  | nil => rfl
  | cons f fs ih =>
    rw [List.forall_mem_cons] at members
    rw [List.flatMap_cons, List.cons_append, idsIn_other (by decide),
      idsIn_fieldRow legible members.1, ih members.2, List.map_cons]

end

/-- The ids in the markup are the names of the visible fields in their order, and at each of them
    stands what is sent for its field. -/
structure ShowsFields (m : Form) : Prop where
  ids : idsIn m.markup.toList = m.visible.map (·.name.toList)
  controls : ∀ (earlier : List Field) (f : Field) (later : List Field),
    m.visible = earlier ++ f :: later → ∃ (before : List Char) (tag : Tag) (after : List Char),
      m.markup.toList = before ++ (tag.text ++ after) ∧
      idsIn before = earlier.map (·.name.toList) ∧ tag.IsLegible ∧ tag.Submits m f

/-- No field is lost, doubled or moved, whatever its control and its relation. -/
theorem markup_shows_fields (legible : m.IsLegible) : m.ShowsFields := by
  have members : ∀ f ∈ m.visible, f ∈ m.fields := fun f member => List.mem_of_mem_filter member
  constructor
  · cases shown : m.visible with
    | nil =>
      rw [markup, ← visible, shown]
      rfl
    | cons f later =>
      rw [shown, List.forall_mem_cons] at members
      rw [markup_text (show m.visible = [] ++ f :: later from shown), List.flatMap_nil,
        List.nil_append, idsIn_fieldRow legible members.1, idsIn_later legible members.2,
        List.map_cons]
  · intro earlier f later split
    rw [split, List.forall_mem_append, List.forall_mem_cons] at members
    obtain ⟨before, control, after, sends⟩ := fieldRow_sends legible members.2.1
    have parts := legible_fieldRow legible members.2.1
    rw [Row.IsLegible, sends.split, List.forall_mem_append, List.forall_mem_cons] at parts
    have others := List.forall_mem_append.1 sends.others
    refine ⟨(earlier.flatMap fun g => (m.fieldRow g).text ++ ['\n'])
      ++ (before.flatMap Part.text ++ control.before), control.tag,
      after.flatMap Part.text ++ later.flatMap fun g => '\n' :: (m.fieldRow g).text, ?_, ?_,
      parts.2.1.tag, sends.submits⟩
    · rw [markup_text split, Row.text_parts, sends.split]
      simp [Part.text]
    · rw [idsIn_earlier legible members.1, idsIn_parts parts.1, idsIn_free parts.2.1.before,
        List.flatMap_eq_nil_iff.2 others.1, List.append_nil, List.append_nil]

def mixedForm : Form where
  fields := [
    { Field.ofName "title" .text with label := "It's\n<input id>" },
    Field.ofName "token" .hidden,
    { Field.ofName "state" .select with options := [("a\nb", "A"), ("it's", "")] },
    { Field.ofName "owner" .hidden with relation := some { name := "user" } },
    { Field.ofName "secret" .text with visibility := ⟨false, true, true⟩ },
    Field.ofName "active" .checkbox,
    Field.ofName "body" .textarea]
  model := "BlogPost"
  style := { inputClass := "wide\r\nfield" }
  languageFile := some "posts"

theorem mixed_form_shown : mixedForm.IsLegible ∧ mixedForm.ShowsFields ∧
    mixedForm.visible.map (·.name) = ["title", "token", "state", "owner", "active", "body"] := by
  have legible : mixedForm.IsLegible := ⟨by decide, by decide, by decide, by decide⟩
  exact ⟨legible, markup_shows_fields legible, by decide⟩

def ownerField : Field :=
  { Field.ofName "owner" .text with
    relation := some { name := "user", collection := some "users id=\"x" } }

def ownerForm : Form := ⟨[ownerField], "Post", {}, none⟩

def markedFileForm : Form := ⟨[Field.ofName "title" .text], "Post", {}, some "posts id=\"x"⟩

/-- All that is asked of a form but for the names that it takes over. -/
structure HasPlainTexts (m : Form) : Prop where
  model : isModelName m.model = true
  names : ∀ f ∈ m.fields, isIdentifier f.name = true
  texts : ∀ s ∈ m.texts, Unmarked s.toList ∧ Blade.Quiet s.toList

/-- Names that a form takes over as they are may hold what looks like an id. -/
theorem outer_names_add_ids :
    ownerForm.HasPlainTexts ∧
    idsIn ownerForm.markup.toList ≠ ownerForm.visible.map (·.name.toList) ∧
    markedFileForm.HasPlainTexts ∧
    idsIn markedFileForm.markup.toList ≠ markedFileForm.visible.map (·.name.toList) := by
  have owner : ownerForm.visible = [] ++ ownerField :: [] := by decide
  have title : markedFileForm.visible = [] ++ Field.ofName "title" .text :: [] := by decide
  refine ⟨⟨by decide, by decide, by decide⟩, ?_, ⟨by decide, by decide, by decide⟩, ?_⟩
  · rw [markup_text owner, owner]
    decide +kernel
  · rw [markup_text title, title]
    decide +kernel

end Form

end BladeForm
