import BladeForm.Form.Markup
import BladeForm.Name.Rules
import BladeForm.Proofs.Indentation

/-!
The markup of a form as rows of tags, each with the text before it. Every template is such a row,
and moving its lines changes texts and values but no element and no key, so a group holds the row
of its control with its lines moved.
-/
namespace BladeForm
open Text Name

/-- A tag: its element, its attributes in order, and what stands behind them. -/
structure Tag where
  element : String
  attributes : List (String × List Char)
  rest : List Char
deriving DecidableEq, Repr

namespace Tag

def pair (a : String × List Char) : List Char :=
  ' ' :: (a.1.toList ++ '=' :: '"' :: (a.2 ++ ['"']))

def text (t : Tag) : List Char :=
  '<' :: (t.element.toList ++ (t.attributes.flatMap pair ++ (t.rest ++ ['>'])))

def closing (element : String) : Tag := ⟨"/" ++ element, [], []⟩

def map (turn : List Char → List Char) (t : Tag) : Tag :=
  ⟨t.element, t.attributes.map fun a => (a.1, turn a.2), turn t.rest⟩

def value? (t : Tag) (key : String) : Option (List Char) := t.attributes.lookup key

def isWord (s : String) : Bool := s.toList.all fun c => isLetter c || c = '/'

def isSpelled (t : Tag) : Bool := isWord t.element && t.attributes.all fun a => isWord a.1

end Tag

structure Part where
  before : List Char
  tag : Tag
deriving DecidableEq, Repr

namespace Part

def text (p : Part) : List Char := p.before ++ p.tag.text

def map (turn : List Char → List Char) (p : Part) : Part := ⟨turn p.before, p.tag.map turn⟩

end Part

/-- Tags in a row: the first begins the text, and the last ends it. -/
structure Row where
  first : Tag
  more : List Part
deriving DecidableEq, Repr

namespace Row

def text (r : Row) : List Char := r.first.text ++ r.more.flatMap Part.text

def map (turn : List Char → List Char) (r : Row) : Row :=
  ⟨r.first.map turn, r.more.map (Part.map turn)⟩

def tags (r : Row) : List Tag := r.first :: r.more.map Part.tag

end Row

namespace Form

def inputTag (m : Form) (f : Field) (type : String) (withValue : Bool) : Tag :=
  ⟨"input", [("class", m.style.inputClass.toList), ("name", f.name.toList), ("type", type.toList),
    ("id", f.name.toList)]
      ++ (if withValue then [("value", (Blade.echo (m.oldValue f)).toList)] else []), []⟩

def hiddenTag (m : Form) (f : Field) : Tag :=
  ⟨"input", [("name", f.name.toList), ("type", "hidden".toList), ("id", f.name.toList),
    ("value", (Blade.echo (m.oldValue f)).toList)], []⟩

def textareaTag (m : Form) (f : Field) : Tag :=
  ⟨"textarea", [("class", m.style.inputClass.toList), ("name", f.name.toList),
    ("cols", "50".toList), ("rows", "10".toList), ("id", f.name.toList)], []⟩

def textareaRow (m : Form) (f : Field) : Row :=
  ⟨m.textareaTag f, [⟨(Blade.echo (m.oldValue f)).toList, .closing "textarea"⟩]⟩

def unticked (f : Field) : Tag :=
  ⟨"input", [("name", f.name.toList), ("type", "hidden".toList), ("value", "0".toList)], []⟩

def checkboxTag (m : Form) (f : Field) : Tag :=
  ⟨"input", [("id", f.name.toList), ("name", f.name.toList), ("type", "checkbox".toList),
    ("value", "1".toList)], (" " ++ Blade.echo (m.oldValue f ++ " ? 'checked' : ''")).toList⟩

def checkboxRow (m : Form) (f : Field) : Row := ⟨unticked f, [⟨['\n'], m.checkboxTag f⟩]⟩

def selectTag (m : Form) (f : Field) : Tag :=
  ⟨"select", [("class", m.style.inputClass.toList), ("id", f.name.toList),
    ("name", f.name.toList)], []⟩

def optionTag (m : Form) (f : Field) (value expression : String) : Tag :=
  ⟨"option", [("value", value.toList)], (" " ++ m.selectedIf f expression).toList⟩

def promptParts (m : Form) (f : Field) (noun : String) : List Part :=
  [⟨"\n    ".toList, ⟨"option", [("value", []), ("style", "display: none;".toList)],
      (" " ++ m.selectedIf f "''" ++ " disabled").toList⟩⟩,
    ⟨("Select " ++ noun).toList, .closing "option"⟩]

def optionParts (m : Form) (f : Field) (value text : String) : List Part :=
  [⟨"\n    ".toList, m.optionTag f value (Php.quote value)⟩, ⟨text.toList, .closing "option"⟩]

def optionsRow (m : Form) (f : Field) : Row :=
  ⟨m.selectTag f, m.promptParts f (lowerCase f.label)
    ++ (f.options.flatMap fun o => m.optionParts f o.1 o.2) ++ [⟨['\n'], .closing "select"⟩]⟩

def relationRow (m : Form) (f : Field) (r : Relation) : Row :=
  let item := r.itemVariable
  ⟨m.selectTag f, m.promptParts f (lowerCase (title r.name))
    ++ [⟨(s!"\n    @foreach (${r.collectionName} as ${item})\n        ").toList,
        m.optionTag f (Blade.echo s!"${item}->getKey()") s!"${item}->getKey()"⟩,
      ⟨("\n            " ++ Blade.echo s!"${item}->{r.displayField}" ++ "\n        ").toList,
        .closing "option"⟩,
      ⟨"\n    @endforeach\n".toList, .closing "select"⟩]⟩

def controlRow (m : Form) (f : Field) : Row :=
  match f.relation with
  | some r => m.relationRow f r
  | none =>
    match f.control with
    | .hidden => ⟨m.hiddenTag f, []⟩
    | .select => m.optionsRow f
    | .textarea => m.textareaRow f
    | .checkbox => m.checkboxRow f
    | .password => ⟨m.inputTag f "password" false, []⟩
    | .email => ⟨m.inputTag f "email" true, []⟩
    | .number => ⟨m.inputTag f "number" true, []⟩
    | .date => ⟨m.inputTag f "date" true, []⟩
    | .text => ⟨m.inputTag f "text" true, []⟩

def groupTag (m : Form) (f : Field) : Tag :=
  ⟨"div", [("class", (m.style.groupClass ++ " "
    ++ Blade.echo s!"$errors->has('{f.name}') ? 'has-error' : ''").toList)], []⟩

def groupHead (m : Form) (f : Field) : List Part :=
  [⟨"\n    ".toList, ⟨"label", [("for", f.name.toList), ("class", m.style.labelClass.toList)], []⟩⟩,
    ⟨(m.label f).toList, .closing "label"⟩,
    ⟨"\n    ".toList, ⟨"div", [("class", m.style.inputWrapperClass.toList)], []⟩⟩]

def groupTail (f : Field) : List Part :=
  [⟨(s!"\n        \x7b!! $errors->first('{f.name}', '").toList,
      ⟨"p", [("class", "help-block".toList)], []⟩⟩,
    ⟨":message".toList, .closing "p"⟩,
    ⟨"') !!\x7d\n    ".toList, .closing "div"⟩,
    ⟨['\n'], .closing "div"⟩]

def groupRow (m : Form) (f : Field) (control : Row) : Row :=
  let inner := control.map (moved 8)
  ⟨m.groupTag f, m.groupHead f ++ ⟨"\n        ".toList, inner.first⟩ :: (inner.more ++ groupTail f)⟩

def fieldRow (m : Form) (f : Field) : Row :=
  if f.relation = none ∧ f.control = .hidden then m.controlRow f
  else m.groupRow f (m.controlRow f)

end Form

section
variable {turn : List Char → List Char} (reflows : Reflows turn)

theorem Tag.isSpelled_map (turn : List Char → List Char) (t : Tag) :
    (t.map turn).isSpelled = t.isSpelled := by
  simp [map, isSpelled, Function.comp_def]

theorem Tag.word_free {s : String} (word : isWord s = true) {c : Char}
    (sign : isLetter c = false) (other : c ≠ '/') : c ∉ s.toList := by
  intro member
  have letter := List.all_eq_true.1 word c member
  simp [sign, other] at letter

theorem Tag.word_kept {s : String} (word : isWord s = true) : '\r' ∉ s.toList ∧ '\n' ∉ s.toList :=
  ⟨word_free word (by decide) (by decide), word_free word (by decide) (by decide)⟩

include reflows

theorem turn_attributes {as : List (String × List Char)}
    (keys : ∀ a ∈ as, Tag.isWord a.1 = true) (ys : List Char) :
    turn (as.flatMap Tag.pair ++ ys)
      = (as.map fun a => (a.1, turn a.2)).flatMap Tag.pair ++ turn ys := by
  induction as with
  | nil => rfl
  | cons a as ih =>
    have opening : '\r' ∉ ' ' :: (a.1.toList ++ ['=', '"']) ∧
        '\n' ∉ ' ' :: (a.1.toList ++ ['=', '"']) := by
      simpa using Tag.word_kept (keys a List.mem_cons_self)
    have rest := ih fun b member => keys b (List.mem_cons_of_mem a member)
    have text : ∀ (value zs : List Char), Tag.pair (a.1, value) ++ zs
        = (' ' :: (a.1.toList ++ ['=', '"'])) ++ (value ++ '"' :: zs) := by
      intro value zs
      simp [Tag.pair]
    rw [List.flatMap_cons, List.append_assoc, text a.2, reflows.kept opening,
      reflows.cut (by decide), rest, ← text, List.map_cons, List.flatMap_cons, List.append_assoc]

theorem turn_tag {t : Tag} (spelled : t.isSpelled = true) (xs ys : List Char) :
    turn (xs ++ (t.text ++ ys)) = turn xs ++ ((t.map turn).text ++ turn ys) := by
  obtain ⟨element, keys⟩ := Bool.and_eq_true_iff.1 spelled
  have inner : turn (t.element.toList
      ++ (t.attributes.flatMap Tag.pair ++ (t.rest ++ '>' :: ys)))
        = t.element.toList ++ ((t.map turn).attributes.flatMap Tag.pair
          ++ (turn t.rest ++ '>' :: turn ys)) := by
    rw [reflows.kept (Tag.word_kept element), turn_attributes reflows (List.all_eq_true.1 keys),
      reflows.cut (by decide)]
    rfl
  have outer := reflows.cut (by decide : '<' ∉ ending) xs
    (t.element.toList ++ (t.attributes.flatMap Tag.pair ++ (t.rest ++ '>' :: ys)))
  simp only [Tag.text, List.cons_append, List.append_assoc, List.nil_append]
  rw [outer, inner]
  rfl

theorem turn_parts {ps : List Part} (spelled : ∀ p ∈ ps, p.tag.isSpelled = true) (ys : List Char) :
    turn (ps.flatMap Part.text ++ ys) = (ps.map (Part.map turn)).flatMap Part.text ++ turn ys := by
  induction ps with
  | nil => rfl
  | cons p ps ih =>
    have rest := ih fun q member => spelled q (List.mem_cons_of_mem p member)
    rw [List.flatMap_cons, Part.text, List.append_assoc, List.append_assoc,
      turn_tag reflows (spelled p List.mem_cons_self), rest]
    simp [Part.text, Part.map]

theorem turn_row {r : Row} (spelled : ∀ t ∈ r.tags, t.isSpelled = true) (xs ys : List Char) :
    turn (xs ++ (r.text ++ ys)) = turn xs ++ ((r.map turn).text ++ turn ys) := by
  have first := spelled r.first List.mem_cons_self
  have more : ∀ p ∈ r.more, p.tag.isSpelled = true := fun p member =>
    spelled p.tag (List.mem_cons_of_mem _ (List.mem_map_of_mem member))
  rw [Row.text, List.append_assoc, turn_tag reflows first, turn_parts reflows more, Row.text,
    List.append_assoc]
  rfl

end

namespace Row

theorem ends (r : Row) : ∃ body, r.text = '<' :: (body ++ ['>']) := by
  obtain ⟨first, more⟩ := r
  rcases List.eq_nil_or_concat more with rfl | ⟨front, last, rfl⟩
  · exact ⟨first.element.toList ++ (first.attributes.flatMap Tag.pair ++ first.rest),
      by simp [text, Tag.text]⟩
  · exact ⟨first.element.toList ++ (first.attributes.flatMap Tag.pair ++ (first.rest ++
      '>' :: (front.flatMap Part.text ++ (last.before ++ '<' :: (last.tag.element.toList ++
        (last.tag.attributes.flatMap Tag.pair ++ last.tag.rest)))))),
      by simp [text, Tag.text, Part.text]⟩

theorem map_map (first again : List Char → List Char) (r : Row) :
    (r.map first).map again = r.map (again ∘ first) := by
  simp [map, Part.map, Tag.map, Function.comp_def]

theorem map_spelled {r : Row} (spelled : ∀ t ∈ r.tags, t.isSpelled = true)
    (turn : List Char → List Char) : ∀ t ∈ (r.map turn).tags, t.isSpelled = true := by
  simp only [tags, List.forall_mem_cons, List.forall_mem_map] at spelled
  simp only [map, tags, Part.map, List.forall_mem_cons, List.forall_mem_map, Tag.isSpelled_map]
  exact spelled

/-- The first tag begins at the margin, and each text and value is moved on its own. -/
theorem indent_text {r : Row} (spelled : ∀ t ∈ r.tags, t.isSpelled = true) (width : Nat) :
    indent width r.text = List.replicate width ' ' ++ (r.map (moved width)).text := by
  obtain ⟨body, text⟩ := r.ends
  have first : margin width r.text = List.replicate width ' ' := by
    simp [text, margin, emptyAhead, ending]
  have turned := turn_row (reflows_moved width) spelled [] []
  simp only [List.nil_append, List.append_nil, (reflows_moved width).nil] at turned
  have last : r.text.getLast? ≠ some '\n' := by
    rw [text, ← List.cons_append, List.getLast?_concat]
    decide
  rw [indent_moved (by simp [text]) last, first, turned]

end Row

namespace Form
variable {m : Form} {f : Field}

theorem joinLines_cons (l : String) (ls : List String) :
    (joinLines (l :: ls)).toList = l.toList ++ ls.flatMap fun next => '\n' :: next.toList := by
  induction ls generalizing l with
  | nil => simp [joinLines]
  | cons next ls ih =>
    rw [joinLines, String.intercalate_cons_cons, ← joinLines, String.toList_append,
      String.toList_append, ih]
    simp

theorem joinLines_split (before : List String) (l : String) (after : List String) :
    (joinLines (before ++ l :: after)).toList
      = (before.flatMap fun b => b.toList ++ ['\n'])
        ++ (l.toList ++ after.flatMap fun a => '\n' :: a.toList) := by
  induction before with
  | nil => exact joinLines_cons l after
  | cons b before ih =>
    obtain ⟨next, rest, split⟩ : ∃ next rest, before ++ l :: after = next :: rest :=
      List.exists_cons_of_ne_nil (by simp)
    rw [split] at ih
    rw [List.cons_append, split, joinLines, String.intercalate_cons_cons, ← joinLines,
      String.toList_append, String.toList_append, ih]
    simp

theorem input_text (m : Form) (f : Field) (type : String) (withValue : Bool) :
    (m.input f type withValue).toList = (Row.mk (m.inputTag f type withValue) []).text := by
  unfold input inputTag Row.text Tag.text Tag.pair
  cases withValue with
  | false => simp [toString]
  | true => simp [toString]

theorem hiddenInput_text (m : Form) (f : Field) :
    (m.hiddenInput f).toList = (Row.mk (m.hiddenTag f) []).text := by
  unfold hiddenInput hiddenTag Row.text Tag.text Tag.pair
  simp [toString]

theorem textarea_text (m : Form) (f : Field) :
    (m.textarea f).toList = (m.textareaRow f).text := by
  unfold textarea textareaRow textareaTag Row.text Part.text Tag.text Tag.pair Tag.closing
  simp [toString]

theorem checkbox_text (m : Form) (f : Field) :
    (m.checkbox f).toList = (m.checkboxRow f).text := by
  unfold checkbox checkboxRow unticked checkboxTag Row.text Part.text Tag.text Tag.pair
  rw [joinLines_cons]
  simp [toString]

theorem selectOpening_text (m : Form) (f : Field) :
    (m.selectOpening f).toList = (m.selectTag f).text := by
  unfold selectOpening selectTag Tag.text Tag.pair
  simp [toString]

theorem prompt_text (m : Form) (f : Field) (noun : String) :
    '\n' :: (m.prompt f noun).toList = (m.promptParts f noun).flatMap Part.text := by
  unfold prompt promptParts Part.text Tag.text Tag.pair Tag.closing
  simp [toString]

theorem option_text (m : Form) (f : Field) (value text : String) :
    '\n' :: (m.option f value text).toList = (m.optionParts f value text).flatMap Part.text := by
  unfold option optionParts optionTag Part.text Tag.text Tag.pair Tag.closing
  simp [toString]

theorem optionsSelect_text (m : Form) (f : Field) :
    (m.optionsSelect f).toList = (m.optionsRow f).text := by
  have closing : Part.text ⟨['\n'], .closing "select"⟩ = '\n' :: "</select>".toList := by decide
  unfold optionsSelect optionsRow Row.text
  rw [List.cons_append, List.cons_append, joinLines_cons, selectOpening_text]
  simp only [List.flatMap_append, List.flatMap_cons, List.flatMap_nil, List.flatMap_map,
    prompt_text, option_text, List.flatMap_assoc, closing, List.append_nil, List.append_assoc]

theorem relationSelect_text (m : Form) (f : Field) (r : Relation) :
    (m.relationSelect f r).toList = (m.relationRow f r).text := by
  unfold relationSelect relationRow Row.text
  dsimp only
  rw [joinLines_cons, selectOpening_text, List.flatMap_cons, prompt_text, List.flatMap_append]
  unfold optionTag Part.text Tag.text Tag.pair Tag.closing
  simp [toString]

theorem prompt_spelled (m : Form) (f : Field) (noun : String) :
    ∀ t ∈ (m.promptParts f noun).map Part.tag, t.isSpelled = true := by
  simp only [promptParts, List.map_cons, List.map_nil, List.forall_mem_cons, Tag.isSpelled,
    Tag.closing, List.all_cons, List.all_nil]
  exact ⟨by decide, by decide, by simp⟩

theorem option_spelled (m : Form) (f : Field) (value expression : String) :
    (m.optionTag f value expression).isSpelled = true := by
  simp only [optionTag, Tag.isSpelled, List.all_cons, List.all_nil]
  decide

theorem select_spelled (m : Form) (f : Field) : (m.selectTag f).isSpelled = true := by
  simp only [selectTag, Tag.isSpelled, List.all_cons, List.all_nil]
  decide

theorem input_spelled (m : Form) (f : Field) (type : String) (withValue : Bool) :
    (m.inputTag f type withValue).isSpelled = true := by
  cases withValue
  all_goals
    simp only [inputTag, Tag.isSpelled, if_true, if_false, Bool.false_eq_true, List.cons_append,
      List.nil_append, List.all_cons, List.all_nil]
    decide

theorem closing_spelled {element : String} (word : Tag.isWord element = true) :
    (Tag.closing element).isSpelled = true := by
  simpa [Tag.closing, Tag.isSpelled, Tag.isWord] using word

theorem optionsRow_spelled (m : Form) (f : Field) :
    ∀ t ∈ (m.optionsRow f).tags, t.isSpelled = true := by
  have ending : (Tag.closing "option").isSpelled = true := closing_spelled (by decide)
  simp only [optionsRow, Row.tags, List.forall_mem_cons, List.map_append, List.forall_mem_append,
    List.map_flatMap, List.map_cons, List.map_nil, List.mem_flatMap]
  refine ⟨select_spelled m f, ⟨prompt_spelled m f _, ?_⟩, closing_spelled (by decide), by simp⟩
  rintro t ⟨o, _, member⟩
  simp only [optionParts, List.map_cons, List.map_nil, List.mem_cons, List.not_mem_nil, or_false]
    at member
  rcases member with rfl | rfl
  · exact option_spelled m f _ _
  · exact ending

theorem relationRow_spelled (m : Form) (f : Field) (r : Relation) :
    ∀ t ∈ (m.relationRow f r).tags, t.isSpelled = true := by
  simp only [relationRow, Row.tags, List.forall_mem_cons, List.map_append, List.forall_mem_append,
    List.map_cons, List.map_nil]
  exact ⟨select_spelled m f, prompt_spelled m f _, option_spelled m f _ _,
    closing_spelled (by decide), closing_spelled (by decide), by simp⟩

theorem controlRow_spelled (m : Form) (f : Field) :
    ∀ t ∈ (m.controlRow f).tags, t.isSpelled = true := by
  rw [controlRow]
  cases f.relation with
  | some r => exact relationRow_spelled m f r
  | none =>
    cases f.control with
    | select => exact optionsRow_spelled m f
    | hidden =>
      simp only [Row.tags, List.map_nil, List.forall_mem_singleton, hiddenTag, Tag.isSpelled,
        List.all_cons, List.all_nil]
      decide
    | textarea =>
      simp only [textareaRow, Row.tags, List.map_cons, List.map_nil, List.forall_mem_cons,
        textareaTag, Tag.isSpelled, List.all_cons, List.all_nil]
      exact ⟨by decide, closing_spelled (by decide), by simp⟩
    | checkbox =>
      simp only [checkboxRow, Row.tags, List.map_cons, List.map_nil, List.forall_mem_cons,
        unticked, checkboxTag, Tag.isSpelled, List.all_cons, List.all_nil]
      exact ⟨by decide, by decide, by simp⟩
    | _ => simp [Row.tags, input_spelled]

theorem group_spelled (m : Form) (f : Field) :
    ∀ p ∈ ⟨[], m.groupTag f⟩ :: m.groupHead f ++ groupTail f, p.tag.isSpelled = true := by
  simp only [groupHead, groupTail, groupTag, List.cons_append, List.nil_append,
    List.forall_mem_cons, Tag.isSpelled, Tag.closing, List.all_cons, List.all_nil]
  exact ⟨by decide, by decide, by decide, by decide, by decide, by decide, by decide, by decide,
    by simp⟩

theorem group_text {control : String} {r : Row} (text : control.toList = r.text)
    (spelled : ∀ t ∈ r.tags, t.isSpelled = true) :
    (m.group f control).toList = (m.groupRow f r).text := by
  have inner : (indented 8 control).toList = "        ".toList ++ (r.map (moved 8)).text := by
    rw [indented, String.toList_ofList, text, Row.indent_text spelled]
    rfl
  unfold group groupRow
  dsimp only
  rw [joinLines_cons, Row.text]
  simp only [List.flatMap_cons, List.flatMap_nil, List.flatMap_append, inner, Row.text]
  unfold groupTag groupTail groupHead Part.text Tag.text Tag.pair Tag.closing Blade.rawEcho
  simp [toString]

theorem fieldMarkup_control (m : Form) (f : Field) : ∃ control : String,
    control.toList = (m.controlRow f).text ∧ m.fieldMarkup f
      = if f.relation = none ∧ f.control = .hidden then control else m.group f control := by
  rw [fieldMarkup, controlRow]
  cases f.relation with
  | some r => exact ⟨_, relationSelect_text m f r, rfl⟩
  | none =>
    cases f.control with
    | hidden => exact ⟨_, hiddenInput_text m f, rfl⟩
    | select => exact ⟨_, optionsSelect_text m f, rfl⟩
    | textarea => exact ⟨_, textarea_text m f, rfl⟩
    | checkbox => exact ⟨_, checkbox_text m f, rfl⟩
    | _ => exact ⟨_, input_text m f _ _, rfl⟩

theorem fieldMarkup_text (m : Form) (f : Field) :
    (m.fieldMarkup f).toList = (m.fieldRow f).text := by
  obtain ⟨control, text, markup⟩ := fieldMarkup_control m f
  rw [markup, fieldRow]
  split
  · exact text
  · exact group_text text (controlRow_spelled m f)

def visible (m : Form) : List Field := m.fields.filter (·.isOn .form)

theorem markup_text {earlier later : List Field} (split : m.visible = earlier ++ f :: later) :
    m.markup.toList = (earlier.flatMap fun g => (m.fieldRow g).text ++ ['\n'])
      ++ ((m.fieldRow f).text ++ later.flatMap fun g => '\n' :: (m.fieldRow g).text) := by
  rw [markup, ← visible, split, List.map_append, List.map_cons, joinLines_split]
  simp only [List.flatMap_map, fieldMarkup_text]

theorem markup_row (shown : f ∈ m.visible) : ∃ before after,
    m.markup.toList = before ++ ((m.fieldRow f).text ++ after) := by
  obtain ⟨earlier, later, split⟩ := List.append_of_mem shown
  exact ⟨_, _, markup_text split⟩

theorem markup_ends (shown : m.visible ≠ []) : ∃ before, m.markup.toList = before ++ ['>'] := by
  obtain ⟨earlier, last, split⟩ := List.eq_nil_or_concat m.visible |>.resolve_left shown
  obtain ⟨body, text⟩ := (m.fieldRow last).ends
  rw [List.concat_eq_append] at split
  rw [markup_text split, text, List.flatMap_nil, List.append_nil, ← List.cons_append,
    ← List.append_assoc]
  exact ⟨_, rfl⟩

theorem indented_markup (shown : m.visible ≠ []) (width : Nat) :
    (indented width m.markup).toList
      = margin width m.markup.toList ++ moved width m.markup.toList := by
  obtain ⟨before, ends⟩ := markup_ends shown
  rw [indented, String.toList_ofList, indent_moved]
  · simp [ends]
  · rw [ends, List.getLast?_concat]
    decide

/-- A row that stands in the markup stands in it with its lines moved when the markup moves. -/
theorem indented_row (shown : m.visible ≠ []) {r : Row}
    (spelled : ∀ t ∈ r.tags, t.isSpelled = true) {before after : List Char}
    (text : m.markup.toList = before ++ (r.text ++ after)) (width : Nat) :
    ∃ before' after', (indented width m.markup).toList
      = before' ++ ((r.map (moved width)).text ++ after') := by
  refine ⟨margin width m.markup.toList ++ moved width before, moved width after, ?_⟩
  rw [indented_markup shown, text, turn_row (reflows_moved width) spelled, List.append_assoc]

end Form

end BladeForm
