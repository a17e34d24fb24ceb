import BladeForm.Proofs.Form.Events
import BladeForm.Proofs.Php.Quote

/-!
What the markup of a form does with variables, part by part. If names are identifiers and texts
hold no sign that Blade reads, then only what the templates themselves write is an event: each
field reads the record, and a relation is one loop, whatever control its field asks for.
-/
namespace BladeForm
open Blade Name

structure Relation.IsPlain (r : Relation) : Prop where
  name : isIdentifier r.name = true
  collection : ∀ c ∈ r.collection, isIdentifier c = true
  display : Quiet r.displayField.toList

instance (r : Relation) : Decidable r.IsPlain :=
  decidable_of_iff (isIdentifier r.name = true ∧ (∀ c ∈ r.collection, isIdentifier c = true) ∧
    Quiet r.displayField.toList) ⟨fun ⟨n, c, d⟩ => ⟨n, c, d⟩, fun ⟨n, c, d⟩ => ⟨n, c, d⟩⟩

structure Field.IsPlain (f : Field) : Prop where
  name : isIdentifier f.name = true
  label : Quiet f.label.toList
  options : ∀ o ∈ f.options, Quiet o.1.toList ∧ Quiet o.2.toList
  relation : ∀ r ∈ f.relation, r.IsPlain

instance (f : Field) : Decidable f.IsPlain :=
  decidable_of_iff (isIdentifier f.name = true ∧ Quiet f.label.toList ∧
    (∀ o ∈ f.options, Quiet o.1.toList ∧ Quiet o.2.toList) ∧ ∀ r ∈ f.relation, r.IsPlain)
    ⟨fun ⟨n, l, o, r⟩ => ⟨n, l, o, r⟩, fun ⟨n, l, o, r⟩ => ⟨n, l, o, r⟩⟩

structure Style.IsPlain (s : Style) : Prop where
  groupClass : Quiet s.groupClass.toList
  labelClass : Quiet s.labelClass.toList
  inputWrapperClass : Quiet s.inputWrapperClass.toList
  inputClass : Quiet s.inputClass.toList

/-- A language file is named where the labels would be, so its name is a text like them. -/
structure Form.IsPlain (m : Form) : Prop where
  model : isModelName m.model = true
  fields : ∀ f ∈ m.fields, f.IsPlain
  style : m.style.IsPlain
  languageFile : ∀ file ∈ m.languageFile, Quiet file.toList

theorem wordy_identifier {name : String} (valid : isIdentifier name = true) :
    IsWordy name.toList := by
  obtain ⟨c, cs, spelled, first, rest⟩ := starts_split valid
  rw [spelled]
  exact List.forall_mem_cons.2 ⟨first_word first, rest⟩

namespace Relation
variable {r : Relation}

theorem wordy_item (plain : r.IsPlain) : IsWordy r.itemVariable.toList :=
  wordy_variable (wordy_identifier plain.name)

theorem wordy_collection (plain : r.IsPlain) : IsWordy r.collectionName.toList := by
  rw [collectionName]
  cases given : r.collection with
  | none => exact wordy_variables (wordy_identifier plain.name)
  | some c => exact wordy_identifier (plain.collection c given)

theorem quiet_title (plain : r.IsPlain) : Quiet (title r.name).toList := by
  have chars := fun c => @title_chars r.name (wordy_identifier plain.name) c
  exact ⟨fun member => absurd (chars '$' member) (by decide),
    fun member => absurd (chars '@' member) (by decide)⟩

end Relation

namespace Form
variable {m : Form} {f : Field} {r : Relation}

theorem wordy_record (valid : isModelName m.model = true) : IsWordy m.record.toList := by
  obtain ⟨c, cs, spelled, _, wordy⟩ := model_chars valid
  exact wordy_variable (by rw [spelled]; exact wordy)

theorem events_joinLines (ls : List String) :
    events (joinLines ls).toList = ls.flatMap fun l => events l.toList := by
  induction ls with
  | nil => rfl
  | cons l rest ih =>
    cases rest with
    | nil => simp [joinLines]
    | cons next rest =>
      rw [joinLines] at ih
      rw [joinLines, String.intercalate_cons_cons, String.toList_append, String.toList_append,
        List.append_assoc, List.flatMap_cons, ← ih]
      exact events_break (Or.inl rfl) _ _

theorem events_indented (width : Nat) (s : String) :
    events (indented width s).toList = events s.toList := by
  rw [indented, String.toList_ofList, events_indent]

def controlEvents (m : Form) (f : Field) : List Event :=
  match f.relation with
  | some r =>
    [.reads m.record, .opens r.collectionName r.itemVariable, .reads r.collectionName,
      .reads r.itemVariable, .reads r.itemVariable, .reads m.record, .reads r.itemVariable,
      .reads r.itemVariable, .closes]
  | none =>
    match f.control with
    | .password => []
    | .select => .reads m.record :: f.options.map fun _ => .reads m.record
    | _ => [.reads m.record]

def fieldEvents (m : Form) (f : Field) : List Event :=
  if f.relation = none ∧ f.control = .hidden then m.controlEvents f
  else .reads "errors" :: (m.controlEvents f ++ [.reads "errors"])

theorem quiet_quote {s : String} (quiet : Quiet s.toList) : Quiet (Php.quote s).toList :=
  ⟨Php.free_quote (by decide) quiet.1, Php.free_quote (by decide) quiet.2⟩

theorem quiet_lowerCase {s : String} (quiet : Quiet s.toList) : Quiet (lowerCase s).toList :=
  ⟨free_lowerCase ⟨by decide, by decide⟩ quiet.1, free_lowerCase ⟨by decide, by decide⟩ quiet.2⟩

theorem events_errors {asked : String}
    (either : asked = "$errors->has('" ∨ asked = "$errors->first('") (rest : List Char) :
    events (asked.toList ++ rest) = .reads "errors" :: events rest := by
  rcases either with rfl | rfl
  · simp [events, eventsAt, isWordChar, isLetter]
  · simp [events, eventsAt, isWordChar, isLetter]

theorem events_key {item : String} (wordy : IsWordy item.toList) (rest : List Char) :
    events ((echo s!"${item}->getKey()").toList ++ rest) = .reads item :: events rest := by
  simp [echo, toString, events_variable, wordy, events_other, isWordChar, isLetter]

theorem events_shown {item display : String} (wordy : IsWordy item.toList)
    (quiet : Quiet display.toList) :
    events (echo s!"${item}->{display}").toList = [.reads item] := by
  simp [echo, toString, events_variable, wordy, events_other, events_quiet, quiet, isWordChar,
    isLetter, events_nil]

theorem events_opening {collection item : String} (first : IsWordy collection.toList)
    (second : IsWordy item.toList) : events (s!"    @foreach (${collection} as ${item})").toList
      = [.opens collection item, .reads collection, .reads item] := by
  have spelled : (s!"    @foreach (${collection} as ${item})").toList
      = "    ".toList ++ '@' :: (loop collection item ++ []) := by
    simp [toString, loop, loopStart, loopMiddle]
  rw [spelled, events_quiet (by decide), events_loop first second, events_nil]

section
variable (record : IsWordy m.record.toList) (name : IsWordy f.name.toList)

include name in
theorem events_selectOpening (style : Quiet m.style.inputClass.toList) :
    events (m.selectOpening f).toList = [] := by
  have quiet := quiet_wordy name
  unfold selectOpening
  simp (disch := first | assumption | decide) only [toString, String.toList_append,
    List.append_assoc, events_quiet, events_none]

include record name

theorem events_oldValue (rest : List Char) :
    events ((m.oldValue f).toList ++ rest) = .reads m.record :: events rest := by
  simp [oldValue, toString, events_other, events_quiet, quiet_wordy, name, events_variable, record,
    isWordChar, isLetter]

theorem events_selectedIf {expression : String} (quiet : Quiet expression.toList)
    (rest : List Char) :
    events ((m.selectedIf f expression).toList ++ rest) = .reads m.record :: events rest := by
  unfold selectedIf echo
  simp (disch := first | assumption | decide) only [String.toList_append, List.append_assoc,
    events_quiet, events_oldValue]

theorem events_selectedItem {item : String} (wordy : IsWordy item.toList) (rest : List Char) :
    events ((m.selectedIf f s!"${item}->getKey()").toList ++ rest)
      = .reads m.record :: .reads item :: events rest := by
  simp [selectedIf, echo, toString, events_other, events_variable, wordy, events_oldValue, record,
    name, isWordChar, isLetter]

theorem events_prompt {noun : String} (quiet : Quiet noun.toList) :
    events (m.prompt f noun).toList = [.reads m.record] := by
  unfold prompt
  simp (disch := first | assumption | decide) only [toString, String.toList_append,
    List.append_assoc, events_quiet, events_selectedIf, events_none]

theorem events_option {value text : String} (first : Quiet value.toList)
    (second : Quiet text.toList) : events (m.option f value text).toList = [.reads m.record] := by
  have quoted := quiet_quote first
  unfold option
  simp (disch := first | assumption | decide) only [toString, String.toList_append,
    List.append_assoc, events_quiet, events_selectedIf, events_none]

theorem events_hiddenInput : events (m.hiddenInput f).toList = [.reads m.record] := by
  have quiet := quiet_wordy name
  unfold hiddenInput echo
  simp (disch := first | assumption | decide) only [toString, String.toList_append,
    List.append_assoc, events_quiet, events_oldValue, events_none]

theorem events_input (style : Quiet m.style.inputClass.toList) {type : String}
    (known : Quiet type.toList) (withValue : Bool) :
    events (m.input f type withValue).toList = if withValue then [.reads m.record] else [] := by
  have quiet := quiet_wordy name
  unfold input echo
  cases withValue with
  | false =>
    simp (disch := first | assumption | decide) only [toString, String.toList_append,
      List.append_assoc, events_quiet, events_none, if_false, Bool.false_eq_true]
  | true =>
    simp (disch := first | assumption | decide) only [toString, String.toList_append,
      List.append_assoc, events_quiet, events_oldValue, events_none, if_true]

theorem events_textarea (style : Quiet m.style.inputClass.toList) :
    events (m.textarea f).toList = [.reads m.record] := by
  have quiet := quiet_wordy name
  unfold textarea echo
  simp (disch := first | assumption | decide) only [toString, String.toList_append,
    List.append_assoc, events_quiet, events_oldValue, events_none]

theorem events_checkbox : events (m.checkbox f).toList = [.reads m.record] := by
  have quiet := quiet_wordy name
  unfold checkbox echo
  rw [events_joinLines, List.flatMap_cons, List.flatMap_cons, List.flatMap_nil]
  simp (disch := first | assumption | decide) only [toString, String.toList_append,
    List.append_assoc, events_quiet, events_oldValue, events_none]
  rfl

theorem events_optionsSelect (style : Quiet m.style.inputClass.toList)
    (label : Quiet f.label.toList)
    (options : ∀ o ∈ f.options, Quiet o.1.toList ∧ Quiet o.2.toList) :
    events (m.optionsSelect f).toList
      = .reads m.record :: f.options.map fun _ => .reads m.record := by
  have each : (f.options.map fun o => m.option f o.1 o.2).flatMap (fun l => events l.toList)
      = f.options.map fun _ => .reads m.record := by
    rw [List.flatMap_map, List.map_eq_flatMap]
    refine List.flatMap_congr fun o member => ?_
    exact events_option record name (options o member).1 (options o member).2
  unfold optionsSelect
  rw [events_joinLines, List.flatMap_append, List.flatMap_append, each]
  simp only [List.flatMap_cons, List.flatMap_nil, events_selectOpening name style,
    events_prompt record name (quiet_lowerCase label)]
  rw [events_none (by decide)]
  simp

theorem events_relationSelect (style : Quiet m.style.inputClass.toList) {r : Relation}
    (plain : r.IsPlain) : events (m.relationSelect f r).toList =
      [.reads m.record, .opens r.collectionName r.itemVariable, .reads r.collectionName,
        .reads r.itemVariable, .reads r.itemVariable, .reads m.record, .reads r.itemVariable,
        .reads r.itemVariable, .closes] := by
  have item := Relation.wordy_item plain
  have prompt := events_prompt record name (quiet_lowerCase (Relation.quiet_title plain))
  have key : events ("        <option value=\"" ++ echo s!"${r.itemVariable}->getKey()" ++ "\" "
      ++ m.selectedIf f s!"${r.itemVariable}->getKey()" ++ ">").toList
      = [.reads r.itemVariable, .reads m.record, .reads r.itemVariable] := by
    simp only [String.toList_append, List.append_assoc]
    rw [events_quiet (by decide), events_key item, events_quiet (by decide),
      events_selectedItem record name item, events_none (by decide)]
  have shown : events ("            " ++ echo s!"${r.itemVariable}->{r.displayField}").toList
      = [.reads r.itemVariable] := by
    rw [String.toList_append, events_quiet (by decide), events_shown item plain.display]
  have opening := events_opening (Relation.wordy_collection plain) item
  have ending : events "    @endforeach".toList = [.closes] := by decide
  unfold relationSelect
  rw [events_joinLines]
  simp only [List.flatMap_cons, List.flatMap_nil, events_selectOpening name style, prompt, opening,
    key, shown, ending]
  rw [events_none (by decide), events_none (by decide)]
  rfl

end

theorem quiet_label (plain : m.IsPlain) (field : f.IsPlain) : Quiet (m.label f).toList := by
  unfold label
  cases given : m.languageFile with
  | none => exact field.label
  | some file =>
    have known := plain.languageFile file given
    have name := quiet_wordy (wordy_identifier field.name)
    simp only [echo, toString, String.toList_append]
    refine quiet_append (quiet_append (by decide) (quiet_append (quiet_append (quiet_append
      (quiet_append (by decide) known) (by decide)) name) (by decide))) (by decide)

theorem events_group (plain : m.IsPlain) (field : f.IsPlain) (control : String) :
    events (m.group f control).toList
      = .reads "errors" :: (events control.toList ++ [.reads "errors"]) := by
  have quiet := quiet_wordy (wordy_identifier field.name)
  have label := quiet_label plain field
  obtain ⟨groupClass, labelClass, inputWrapperClass, _⟩ := plain.style
  unfold group rawEcho echo
  rw [events_joinLines]
  simp only [List.flatMap_cons, List.flatMap_nil, events_indented]
  simp (disch := first | assumption | decide) only [toString, String.toList_append,
    List.append_assoc, events_quiet, events_errors, events_none]
  rfl

theorem events_fieldMarkup (plain : m.IsPlain) (field : f.IsPlain) :
    events (m.fieldMarkup f).toList = m.fieldEvents f := by
  have record := wordy_record plain.model
  have name := wordy_identifier field.name
  have style := plain.style.inputClass
  cases related : f.relation with
  | some r =>
    rw [fieldMarkup, related]
    dsimp only
    rw [events_group plain field,
      events_relationSelect record name style (field.relation r related)]
    simp [fieldEvents, controlEvents, related]
  | none =>
    rw [fieldMarkup, related]
    dsimp only
    cases kind : f.control with
    | hidden =>
      simp [fieldEvents, controlEvents, related, kind, events_hiddenInput record name]
    | select =>
      dsimp only
      rw [events_group plain field,
        events_optionsSelect record name style field.label field.options]
      simp [fieldEvents, controlEvents, related, kind]
    | textarea =>
      dsimp only
      rw [events_group plain field, events_textarea record name style]
      simp [fieldEvents, controlEvents, related, kind]
    | checkbox =>
      dsimp only
      rw [events_group plain field, events_checkbox record name]
      simp [fieldEvents, controlEvents, related, kind]
    | _ =>
      dsimp only
      rw [events_group plain field, events_input record name style (by decide)]
      simp [fieldEvents, controlEvents, related, kind]

/-- The markup does what its fields do, one after the other. -/
theorem events_markup (plain : m.IsPlain) :
    events m.markup.toList = (m.fields.filter (·.isOn .form)).flatMap m.fieldEvents := by
  rw [markup, events_joinLines, List.flatMap_map]
  refine List.flatMap_congr fun f member => ?_
  exact events_fieldMarkup plain (plain.fields f (List.mem_of_mem_filter member))

end Form

end BladeForm
