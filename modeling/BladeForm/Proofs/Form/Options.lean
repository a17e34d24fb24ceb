import BladeForm.Proofs.Form.Tags
import BladeForm.Proofs.Php.Quote
import BladeForm.Proofs.Plan.Placeholders
import BladeForm.Proofs.Tree
import Mathlib.Data.List.Forall2

/-!
The options of a select, and what each of them compares the old value with. Moving lines and
escaping do not get into each other's way: a literal still ends at its own quote after its lines
have moved, and it reads as its key with the lines moved. That is the key as long as it has no line
feed, and never otherwise.
-/
namespace BladeForm
open Text

namespace Php
variable {turn : List Char → List Char}

theorem escape_append (xs ys : List Char) : escape (xs ++ ys) = escape xs ++ escape ys := by
  induction xs with
  | nil => rfl
  | cons x xs ih =>
    cases plain : isPlain x with
    | false => simp [escape_special plain, ih]
    | true => simp [escape_cons plain, ih]

theorem special_kept {c : Char} (special : isPlain c = false) : c ∉ ending := by
  rcases special_cases special with rfl | rfl <;> decide

theorem turn_escape (reflows : Reflows turn) (text : List Char) :
    turn (escape text) = escape (turn text) := by
  by_cases plain : text.all isPlain = true
  · rw [escape_plain plain, escape_plain]
    rw [List.all_eq_true] at plain ⊢
    intro c member
    rcases reflows.source member with inside | rfl
    · exact plain c inside
    · decide
  · obtain ⟨c, member, special⟩ : ∃ c ∈ text, isPlain c = false := by simpa using plain
    obtain ⟨xs, ys, split⟩ := List.append_of_mem member
    have shorter : xs.length < text.length ∧ ys.length < text.length := by
      rw [split, List.length_append, List.length_cons]
      omega
    have kept := special_kept special
    have after := reflows.cut kept [] (escape ys)
    rw [reflows.nil, List.nil_append, List.nil_append] at after
    rw [split, escape_append, escape_special special, reflows.cut (by decide), after,
      reflows.cut kept, escape_append, escape_special special, turn_escape reflows xs,
      turn_escape reflows ys]
termination_by text.length
decreasing_by
  · exact shorter.1
  · exact shorter.2

end Php

namespace Form
variable {m : Form} {f : Field} {turn : List Char → List Char}

/-- The tag of an option: it stands for the key, and the old value is compared with a literal that
    ends at its own quote and reads as the key, both after a move of their lines. -/
structure Compares (m : Form) (f : Field) (turn : List Char → List Char) (key : String) (t : Tag) :
    Prop where
  element : t.element = "option"
  value : t.attributes = [("value", turn key.toList)]
  test : ∃ literal,
    t.rest = " \x7b\x7b ".toList ++ (turn (m.oldValue f).toList ++ (" == ".toList ++ literal)) ∧
    Php.literal? literal = some (turn key.toList, " ? 'selected' : '' \x7d\x7d".toList)

/-- The select of a field stands in a text with its lines moved, and its options in their order. -/
def OptionsIn (m : Form) (f : Field) (turn : List Char → List Char) (text : List Char) : Prop :=
  ∃ (before : List Char) (tags : List Tag) (after : List Char),
    text = before ++ (Row.text ⟨(m.selectTag f).map turn,
      (m.promptParts f (Name.lowerCase f.label)).map (Part.map turn)
      ++ ((f.options.zip tags).flatMap fun o =>
        [⟨turn "\n    ".toList, o.2⟩, ⟨turn o.1.2.toList, .closing "option"⟩])
      ++ [⟨turn ['\n'], .closing "select"⟩]⟩ ++ after) ∧
    List.Forall₂ (fun o t => m.Compares f turn o.1 t) f.options tags

theorem option_compares (reflows : Reflows turn) (m : Form) (f : Field) (key : String) :
    m.Compares f turn key ((m.optionTag f key (Php.quote key)).map turn) := by
  refine ⟨rfl, rfl,
    '\'' :: (Php.escape (turn key.toList) ++ '\'' :: " ? 'selected' : '' \x7d\x7d".toList), ?_,
    Php.literal?_escape _ _⟩
  have text : (" " ++ m.selectedIf f (Php.quote key)).toList = " \x7b\x7b ".toList
      ++ ((m.oldValue f).toList ++ ' ' :: ("== '".toList ++ (Php.escape key.toList
        ++ '\'' :: " ? 'selected' : '' \x7d\x7d".toList))) := by
    unfold selectedIf Blade.echo Php.quote
    simp
  have ending : turn " ? 'selected' : '' \x7d\x7d".toList = " ? 'selected' : '' \x7d\x7d".toList :=
    reflows.same (by decide)
  rw [optionTag, Tag.map]
  dsimp only
  rw [text, reflows.kept (by decide), reflows.cut (by decide), reflows.kept (by decide),
    reflows.cut (by decide), Php.turn_escape reflows, ending]
  simp

theorem closing_map (reflows : Reflows turn) (element : String) :
    (Tag.closing element).map turn = .closing element := by
  rw [Tag.map, Tag.closing, reflows.nil]
  rfl

theorem optionsRow_in (reflows : Reflows turn) (m : Form) (f : Field) (before after : List Char) :
    m.OptionsIn f turn (before ++ (((m.optionsRow f).map turn).text ++ after)) := by
  let tag (o : String × String) : Tag := (m.optionTag f o.1 (Php.quote o.1)).map turn
  have each (es : List (String × String)) :
      (es.flatMap fun o => m.optionParts f o.1 o.2).map (Part.map turn)
        = (es.zip (es.map tag)).flatMap fun o =>
          [⟨turn "\n    ".toList, o.2⟩, ⟨turn o.1.2.toList, .closing "option"⟩] := by
    induction es with
    | nil => rfl
    | cons o es ih =>
      rw [List.flatMap_cons, List.map_append, ih, List.map_cons, List.zip_cons_cons,
        List.flatMap_cons, optionParts]
      simp only [List.map_cons, List.map_nil, Part.map, closing_map reflows]
      rfl
  refine ⟨before, f.options.map tag, after, ?_, ?_⟩
  · simp only [optionsRow, Row.map, List.map_append, each, List.map_cons, List.map_nil, Part.map,
      closing_map reflows]
  · rw [List.forall₂_map_right_iff, List.forall₂_same]
    exact fun o _ => option_compares reflows m f o.1

theorem groupRow_text (m : Form) (f : Field) (r : Row) : ∃ before after,
    (m.groupRow f r).text = before ++ ((r.map (moved 8)).text ++ after) := by
  refine ⟨(m.groupTag f).text ++ ((m.groupHead f).flatMap Part.text ++ "\n        ".toList),
    (groupTail f).flatMap Part.text, ?_⟩
  simp only [groupRow, Row.text, Part.text, List.flatMap_append, List.flatMap_cons,
    List.append_assoc]

theorem markup_select (member : f ∈ m.fields) (shown : f.isOn .form = true)
    (plain : f.relation = none) (select : f.control = .select) : ∃ before after,
    m.markup.toList = before ++ (((m.optionsRow f).map (moved 8)).text ++ after) := by
  obtain ⟨earlier, later, text⟩ := markup_row (List.mem_filter.2 ⟨member, shown⟩)
  obtain ⟨before, after, group⟩ := groupRow_text m f (m.optionsRow f)
  have row : m.fieldRow f = m.groupRow f (m.optionsRow f) := by
    simp [fieldRow, controlRow, plain, select]
  rw [text, row, group]
  exact ⟨earlier ++ before, after ++ later, by simp only [List.append_assoc]⟩

/-- In the markup, and in the form that the stub gets, every test ends at its own quote and reads
    as the key of its option after one and after two moves of its lines. So it is the key exactly
    if that has no line feed. -/
theorem option_tests (s : Settings) (arguments accessor : String) (member : f ∈ m.fields)
    (shown : f.isOn .form = true) (plain : f.relation = none) (select : f.control = .select) :
    m.OptionsIn f (moved 8) m.markup.toList ∧
    (∃ html, (s.formPlaceholders m.markup arguments accessor).get?
        (Placeholders.token "form_fields_html") = some html ∧
      m.OptionsIn f (moved 16 ∘ moved 8) html.toList) ∧
    ∀ o ∈ f.options, (moved 8 o.1.toList = o.1.toList ↔ '\n' ∉ o.1.toList) ∧
      ((moved 16 ∘ moved 8) o.1.toList = o.1.toList ↔ '\n' ∉ o.1.toList) := by
  obtain ⟨before, after, text⟩ := markup_select member shown plain select
  refine ⟨?_, ⟨indented 16 m.markup, s.formPlaceholders_markup _ _ _, ?_⟩, fun o _ => ⟨?_, ?_⟩⟩
  · rw [text]
    exact optionsRow_in (reflows_moved 8) m f before after
  · have some : m.visible ≠ [] := List.ne_nil_of_mem (List.mem_filter.2 ⟨member, shown⟩)
    have spelled := Row.map_spelled (optionsRow_spelled m f) (moved 8)
    obtain ⟨front, behind, moves⟩ := indented_row some spelled text 16
    rw [moves, Row.map_map]
    exact optionsRow_in ((reflows_moved 16).comp (reflows_moved 8)) m f _ _
  · exact moved_same_iff (by decide)
  · exact moved_twice_iff (by decide)

def stateField : Field :=
  { Field.ofName "state" .select with options := [("it's\r\\", "A"), ("a\r\nb", "B"), ("", "\n")] }

def stateForm : Form := ⟨[Field.ofName "title" .text, stateField], "Post", {}, none⟩

def postSettings : Settings where
  modelName := "Post"
  resourceFile := "post.json"
  viewsDirectory := none
  routesPrefix := none
  languageFileName := "posts"
  layoutName := "layouts.app"
  templateName := "default"
  force := false
  paths := {}
  locale := "en"

theorem state_options_tested :
    stateField ∈ stateForm.fields ∧ stateField.isOn .form = true ∧ stateField.relation = none ∧
    stateField.control = .select ∧
    stateForm.OptionsIn stateField (moved 8) stateForm.markup.toList ∧
    (∃ html, (postSettings.formPlaceholders stateForm.markup "" "").get?
        (Placeholders.token "form_fields_html") = some html ∧
      stateForm.OptionsIn stateField (moved 16 ∘ moved 8) html.toList) ∧
    ∀ o ∈ stateField.options, (moved 8 o.1.toList = o.1.toList ↔ '\n' ∉ o.1.toList) ∧
      ((moved 16 ∘ moved 8) o.1.toList = o.1.toList ↔ '\n' ∉ o.1.toList) := by
  have member : stateField ∈ stateForm.fields := by decide
  exact ⟨member, rfl, rfl, rfl, option_tests postSettings "" "" member rfl rfl rfl⟩

def compared : List Char → List (List Char)
  | [] => []
  | c :: cs =>
    match (after? " == ".toList (c :: cs)).bind Php.literal? with
    | some (key, _) => key :: compared cs
    | none => compared cs

def linesField : Field := { Field.ofName "state" .select with options := [("a\nb", "AB")] }

def linesForm : Form := ⟨[linesField], "Post", {}, none⟩

/-- Behind the empty value of the prompt comes the key, and it is another one now. -/
theorem lines_key_changed :
    linesForm.visible = [linesField] ∧ Name.isIdentifier linesField.name = true ∧
    linesField.relation = none ∧ linesField.control = .select ∧
    linesField.options.map (·.1) = ["a\nb"] ∧
    compared linesForm.markup.toList = [[], "a\n        b".toList] ∧
    ∃ html, (postSettings.formPlaceholders linesForm.markup "" "").get?
        (Placeholders.token "form_fields_html") = some html ∧
      compared html.toList = [[], "a\n                        b".toList] := by
  have visible : linesForm.visible = [] ++ linesField :: [] := by decide
  have some : linesForm.visible ≠ [] := by decide
  refine ⟨visible, by decide, rfl, rfl, rfl, ?_, _, postSettings.formPlaceholders_markup _ _ _, ?_⟩
  · rw [markup_text visible]
    decide +kernel
  · rw [indented_markup some, markup_text visible]
    decide +kernel

end Form

end BladeForm
