import BladeForm.Proofs.Form.Markup
import BladeForm.Proofs.Form.Tags
import BladeForm.Proofs.Plan.Parts
import BladeForm.Proofs.Plan.Placeholders
import Mathlib.Data.List.TakeWhile

/-!
The labels of a form view. The markup of a field carries a label unless it is a hidden input, and
the label looks the name of the field up in the group of the language file. The view holds it with
the markup. After a run the file has a key for every field, whatever it held before, so every label
finds its text.
-/
namespace BladeForm
open Name Text

namespace Form
variable {m : Form} {f : Field}

def groupOpening (m : Form) (f : Field) : String :=
  s!"<div class=\"{m.style.groupClass} "
    ++ Blade.echo s!"$errors->has('{f.name}') ? 'has-error' : ''" ++ "\">"

def labelOpening (m : Form) (f : Field) : String :=
  s!"    <label for=\"{f.name}\" class=\"{m.style.labelClass}\">"

/-- The second line of the markup of a field is a label of this text. -/
def Labelled (m : Form) (f : Field) (label : String) : Prop :=
  '<' ∉ label.toList ∧ ∃ rest, m.fieldMarkup f
    = m.groupOpening f ++ "\n" ++ (m.labelOpening f ++ label ++ "</label>") ++ "\n" ++ rest

/-- The field has no relation and its control is hidden. -/
def IsBare (f : Field) : Prop := f.relation = none ∧ f.control = .hidden

instance (f : Field) : Decidable (IsBare f) :=
  inferInstanceAs (Decidable (f.relation = none ∧ f.control = .hidden))

theorem group_labelled (m : Form) (f : Field) (control : String) : ∃ rest,
    m.group f control
      = m.groupOpening f ++ "\n" ++ (m.labelOpening f ++ m.label f ++ "</label>") ++ "\n"
        ++ rest := by
  have text : (s!"    <label for=\"{f.name}\" class=\"{m.style.labelClass}\">{m.label f}</label>")
      = m.labelOpening f ++ m.label f ++ "</label>" := by
    unfold labelOpening
    simp only [toString, String.append_assoc]
  obtain ⟨third, later, lines⟩ : ∃ third later, m.group f control = joinLines (m.groupOpening f
      :: (m.labelOpening f ++ m.label f ++ "</label>") :: third :: later) := by
    unfold group
    rw [text]
    exact ⟨_, _, rfl⟩
  refine ⟨joinLines (third :: later), ?_⟩
  rw [lines, joinLines, String.intercalate_cons_cons, String.intercalate_cons_cons, joinLines]
  simp only [String.append_assoc]

theorem fieldMarkup_cases (m : Form) (f : Field) :
    IsBare f ∧ m.fieldMarkup f = m.hiddenInput f ∨
      ¬ IsBare f ∧ ∃ control, m.fieldMarkup f = m.group f control := by
  rw [fieldMarkup, IsBare]
  cases f.relation with
  | some r => exact Or.inr ⟨by simp, _, rfl⟩
  | none =>
    cases f.control with
    | hidden => exact Or.inl ⟨⟨rfl, rfl⟩, rfl⟩
    | _ => exact Or.inr ⟨by simp, _, rfl⟩

theorem label_looked_up {file : String} (given : m.languageFile = some file) :
    m.label f = Blade.echo s!"trans('{file}.{f.name}')" := by
  rw [label, given]

theorem infix_first {c : Char} {needle cs : List Char} (free : c ∉ cs)
    (inside : c :: needle <:+: c :: cs) : needle <+: cs := by
  obtain ⟨before, after, same⟩ := inside
  cases before with
  | nil => exact ⟨after, (List.cons.inj same).2⟩
  | cons d before =>
    refine absurd ?_ free
    rw [← (List.cons.inj same).2]
    simp

theorem word_noTag {cs : List Char} (wordy : IsWordy cs) : '<' ∉ cs :=
  fun member => absurd (wordy '<' member) (by decide)

theorem hidden_begins (m : Form) (f : Field) : ∃ rest : String,
    (m.hiddenInput f).toList = '<' :: 'i' :: rest.toList ∧
      (IsWordy m.record.toList → IsWordy f.name.toList → '<' ∉ rest.toList) := by
  refine ⟨"nput name=\"" ++ f.name ++ "\" type=\"hidden\" id=\"" ++ f.name ++ "\" value=\""
    ++ Blade.echo (m.oldValue f) ++ "\">", ?_, fun record name => ?_⟩
  · unfold hiddenInput
    simp [toString]
  · unfold oldValue Blade.echo
    simp [toString, word_noTag record, word_noTag name]

theorem opening_begins (m : Form) (f : Field) :
    ∃ rest : String, (m.groupOpening f).toList = '<' :: 'd' :: rest.toList := by
  refine ⟨"iv class=\"" ++ m.style.groupClass ++ " "
    ++ Blade.echo s!"$errors->has('{f.name}') ? 'has-error' : ''" ++ "\">", ?_⟩
  unfold groupOpening
  simp [toString]

theorem hidden_unlabelled (record : IsWordy m.record.toList) (name : IsWordy f.name.toList) :
    ¬ "<label".toList <:+: (m.hiddenInput f).toList := by
  obtain ⟨rest, text, free⟩ := hidden_begins m f
  intro inside
  rw [text] at inside
  obtain ⟨_, same⟩ := @infix_first '<' ['l', 'a', 'b', 'e', 'l'] _
    (by simpa using free record name) inside
  cases same

theorem group_carries (m : Form) (f : Field) (control : String) :
    "<label".toList <:+: (m.group f control).toList := by
  obtain ⟨rest, text⟩ := group_labelled m f control
  have opening : m.labelOpening f
      = "    " ++ "<label" ++ s!" for=\"{f.name}\" class=\"{m.style.labelClass}\">" := by
    unfold labelOpening
    simp [toString, ← String.toList_inj]
  rw [text, opening]
  generalize "<label" = tag
  simp only [String.toList_append, List.append_assoc]
  iterate 3 refine List.IsInfix.trans ?_ (List.suffix_append _ _).isInfix
  exact (List.prefix_append _ _).isInfix

theorem label_carried_iff (record : IsWordy m.record.toList) (name : IsWordy f.name.toList) :
    "<label".toList <:+: (m.fieldMarkup f).toList ↔ ¬ IsBare f := by
  rcases fieldMarkup_cases m f with ⟨bare, text⟩ | ⟨framed, control, text⟩
  · simp only [bare, not_true_eq_false, iff_false, text]
    exact hidden_unlabelled record name
  · simp only [framed, not_false_eq_true, iff_true, text]
    exact group_carries m f control

theorem until_tag {xs ys as bs : List Char} (first : '<' ∉ xs) (second : '<' ∉ ys)
    (same : xs ++ '<' :: as = ys ++ '<' :: bs) : xs = ys := by
  have upto : ∀ {cs : List Char}, '<' ∉ cs → ∀ rest : List Char,
      (cs ++ '<' :: rest).takeWhile (· ≠ '<') = cs := by
    intro cs free rest
    rw [Blade.takeWhile_break (by simp), List.takeWhile_eq_self_iff]
    intro c member
    rw [decide_eq_true_eq]
    rintro rfl
    exact free member
  rw [← upto first as, same, upto second bs]

/-- There is one label, and it is the field's. -/
theorem labelled_iff (quiet : '<' ∉ (m.label f).toList) {label : String} :
    m.Labelled f label ↔ ¬ IsBare f ∧ label = m.label f := by
  rcases fieldMarkup_cases m f with ⟨bare, text⟩ | ⟨framed, control, text⟩
  · constructor
    · rintro ⟨_, rest, same⟩
      obtain ⟨input, hidden, _⟩ := hidden_begins m f
      obtain ⟨opening, group⟩ := opening_begins m f
      have lists := congrArg String.toList same
      simp only [text, hidden, String.toList_append, group, List.cons_append] at lists
      cases (List.cons.inj (List.cons.inj lists).2).1
    · rintro ⟨framed, _⟩
      contradiction
  · obtain ⟨rest, whole⟩ := group_labelled m f control
    rw [Labelled, text, whole]
    constructor
    · rintro ⟨free, other, same⟩
      have lists := congrArg String.toList same
      simp only [String.toList_append, List.append_assoc, List.append_cancel_left_eq] at lists
      exact ⟨framed, (String.toList_inj.1 (until_tag quiet free lists)).symm⟩
    · rintro ⟨_, rfl⟩
      exact ⟨quiet, rest, rfl⟩

def labelRow (m : Form) (f : Field) : Row :=
  ⟨⟨"label", [("for", f.name.toList), ("class", m.style.labelClass.toList)], []⟩,
    [⟨(m.label f).toList, .closing "label"⟩]⟩

/-- A label where the form stands in a view: the lines of its class have moved. -/
def placedLabel (m : Form) (f : Field) (label : String) : List Char :=
  (s!"<label for=\"{f.name}\" class=\"").toList
    ++ (moved 16 m.style.labelClass.toList ++ (s!"\">{label}</label>").toList)

theorem labelRow_spelled (m : Form) (f : Field) : ∀ t ∈ (m.labelRow f).tags, t.isSpelled = true := by
  simp only [labelRow, Row.tags, List.map_cons, List.map_nil, List.forall_mem_cons, Tag.isSpelled,
    Tag.closing, List.all_cons, List.all_nil]
  exact ⟨by decide, by decide, by simp⟩

theorem groupRow_label (m : Form) (f : Field) (r : Row) : ∃ before after,
    (m.groupRow f r).text = before ++ ((m.labelRow f).text ++ after) := by
  let behind : List Part :=
    ⟨"\n    ".toList, ⟨"div", [("class", m.style.inputWrapperClass.toList)], []⟩⟩
      :: ⟨"\n        ".toList, (r.map (moved 8)).first⟩ :: ((r.map (moved 8)).more ++ groupTail f)
  refine ⟨(m.groupTag f).text ++ "\n    ".toList, behind.flatMap Part.text, ?_⟩
  simp only [groupRow, groupHead, labelRow, behind, Row.text, Part.text, List.cons_append,
    List.nil_append, List.flatMap_cons, List.flatMap_nil, List.append_assoc, List.append_nil]

theorem markup_label (shown : f ∈ m.visible) (framed : ¬ IsBare f) : ∃ before after,
    m.markup.toList = before ++ ((m.labelRow f).text ++ after) := by
  obtain ⟨earlier, later, text⟩ := markup_row shown
  obtain ⟨before, after, group⟩ := groupRow_label m f (m.controlRow f)
  have row : m.fieldRow f = m.groupRow f (m.controlRow f) := if_neg framed
  rw [text, row, group]
  exact ⟨earlier ++ before, after ++ later, by simp only [List.append_assoc]⟩

theorem labelRow_placed (name : '\r' ∉ f.name.toList ∧ '\n' ∉ f.name.toList)
    (label : '\r' ∉ (m.label f).toList ∧ '\n' ∉ (m.label f).toList) :
    ((m.labelRow f).map (moved 16)).text = m.placedLabel f (m.label f) := by
  have reflows := reflows_moved 16
  unfold labelRow placedLabel Row.map Row.text Part.map Part.text Tag.map Tag.text Tag.pair
    Tag.closing
  simp [toString, reflows.same name, reflows.same label, reflows.nil]

theorem indented_label (shown : f ∈ m.visible) (framed : ¬ IsBare f)
    (name : '\r' ∉ f.name.toList ∧ '\n' ∉ f.name.toList)
    (label : '\r' ∉ (m.label f).toList ∧ '\n' ∉ (m.label f).toList) :
    m.placedLabel f (m.label f) <:+: (indented 16 m.markup).toList := by
  obtain ⟨before, after, text⟩ := markup_label shown framed
  obtain ⟨front, behind, moves⟩ :=
    indented_row (List.ne_nil_of_mem shown) (labelRow_spelled m f) text 16
  rw [moves, labelRow_placed name label]
  exact ⟨front, behind, List.append_assoc ..⟩

end Form

theorem Settings.languagePath_stem {s : Settings} (group : isGroupName s.languageFileName = true) :
    s.languagePath.fileName?.map Path.splitExtension
      = some (s.languageFileName.toList, some ['p', 'h', 'p']) := by
  obtain ⟨before, split⟩ := languagePath_segments group
  obtain ⟨silent, upward⟩ := long_named
    (by simp : 2 < (s.languageFileName.toList ++ ['.', 'p', 'h', 'p']).length)
  have stem : s.languageFileName.toList ≠ [] := by
    obtain ⟨c, cs, spelled, _⟩ := starts_split group
    simp [spelled]
  rw [Path.fileName?_named split silent upward, Option.map_some,
    Path.splitExtension_dotted stem (by decide)]

namespace Plan

theorem lookup_quiet {file name : String} (group : isGroupName file = true)
    (wordy : IsWordy name.toList) :
    ∀ c ∈ ['<', '\r', '\n'], c ∉ (Blade.echo s!"trans('{file}.{name}')").toList := by
  intro c member
  simp only [List.mem_cons, List.not_mem_nil, or_false] at member
  obtain ⟨other, hyphen⟩ : isWordChar c = false ∧ c ≠ '-' := by
    rcases member with rfl | rfl | rfl <;> decide
  have named := group_free group other hyphen
  have called : c ∉ name.toList := by
    intro inside
    rw [wordy c inside] at other
    cases other
  unfold Blade.echo
  rcases member with rfl | rfl | rfl <;> simp [toString, named, called]

/-- The markup of the fields that are shown, with its lines moved. -/
def shownMarkup (c : Config) (p : Plan) : String :=
  Form.indented 16 (Form.joinLines ((p.resource.fields.filter (·.isOn .form)).map
    (formOf c p.settings p.resource).fieldMarkup))

/-- How the view of a run and its language file belong together. -/
structure LabelsResolve (t' : Tree) (c : Config) (p : Plan) (g : Generated) (content : String) :
    Prop where
  file : g.language.path = (c.paths.languages.join c.defaults.locale).join
    s!"{p.settings.languageFileName}.php"
  stem : g.language.path.fileName?.map Path.splitExtension
    = some (p.settings.languageFileName.toList, some ['p', 'h', 'p'])
  read : t'.read? g.language.path = some content
  view : t'.read? g.path = some p.text
  rendered : p.text = p.stub.render (placeholdersOf c p.settings p.resource)
  markup : (placeholdersOf c p.settings p.resource).get? (Placeholders.token "form_fields_html")
    = some (shownMarkup c p)
  placed : ∀ before after,
    p.stub.text.toList = before ++ ((Placeholders.token "form_fields_html").toList ++ after) →
    p.text.toList = (placeholdersOf c p.settings p.resource).substituteChars before
      ++ ((shownMarkup c p).toList
        ++ (placeholdersOf c p.settings p.resource).substituteChars after)
  shown : (Placeholders.token "form_fields_html").toList <:+: p.stub.text.toList →
    ∀ f ∈ p.resource.fields, f.isOn .form = true → ¬ Form.IsBare f →
      (formOf c p.settings p.resource).placedLabel f
        (Blade.echo s!"trans('{p.settings.languageFileName}.{f.name}')") <:+: p.text.toList
  carried : ∀ f ∈ p.resource.fields,
    ("<label".toList <:+: ((formOf c p.settings p.resource).fieldMarkup f).toList ↔
      ¬ Form.IsBare f)
  labels : ∀ f ∈ p.resource.fields, ∀ label,
    (formOf c p.settings p.resource).Labelled f label ↔ ¬ Form.IsBare f ∧
      label = Blade.echo s!"trans('{p.settings.languageFileName}.{f.name}')"
  defined : ∀ f ∈ p.resource.fields, f.name ∈ Language.definedKeys content

theorem formOf_label (c : Config) (s : Settings) (r : Resource) (f : Field) :
    (formOf c s r).label f = Blade.echo s!"trans('{s.languageFileName}.{f.name}')" :=
  Form.label_looked_up rfl

section
variable {t : Tree} {o : Options} {c : Config} {p : Plan} (made : make t o c = .ok p)
include made

theorem field_wordy {f : Field} (member : f ∈ p.resource.fields) : IsWordy f.name.toList :=
  wordy_identifier ((Resource.load_sound (make_ok made).loaded).names f member)

theorem label_quiet {f : Field} (member : f ∈ p.resource.fields) :
    ∀ c' ∈ ['<', '\r', '\n'], c' ∉ ((formOf c p.settings p.resource).label f).toList := by
  rw [formOf_label]
  exact lookup_quiet (Options.settle_ok (make_ok made).settled).group (field_wordy made member)

theorem made_around {before after : List Char} (split : p.stub.text.toList
      = before ++ ((Placeholders.token "form_fields_html").toList ++ after)) :
    p.text.toList = (placeholdersOf c p.settings p.resource).substituteChars before
      ++ ((shownMarkup c p).toList
        ++ (placeholdersOf c p.settings p.resource).substituteChars after) := by
  rw [made_text made]
  exact Settings.render_around _ _ _ _ split

/-- The view shows the label of every field that the form does, if the stub has the form. -/
theorem made_shows
    (token : (Placeholders.token "form_fields_html").toList <:+: p.stub.text.toList)
    {f : Field} (member : f ∈ p.resource.fields) (shown : f.isOn .form = true)
    (framed : ¬ Form.IsBare f) :
    (formOf c p.settings p.resource).placedLabel f
      (Blade.echo s!"trans('{p.settings.languageFileName}.{f.name}')") <:+: p.text.toList := by
  obtain ⟨before, after, split⟩ := token
  rw [List.append_assoc] at split
  rw [made_around made split.symm, ← formOf_label]
  have visible : f ∈ (formOf c p.settings p.resource).visible :=
    List.mem_filter.2 ⟨member, shown⟩
  have name := field_wordy made member
  have quiet := label_quiet made member
  have inside : (formOf c p.settings p.resource).placedLabel f
      ((formOf c p.settings p.resource).label f) <:+: (shownMarkup c p).toList :=
    Form.indented_label visible framed
      ⟨fun cr => absurd (name '\r' cr) (by decide), fun lf => absurd (name '\n' lf) (by decide)⟩
      ⟨quiet '\r' (by simp), quiet '\n' (by simp)⟩
  exact (inside.trans (List.prefix_append _ _).isInfix).trans (List.suffix_append _ _).isInfix

end

/-- After a run that succeeds, every label of the view looks up the group of the language file,
    and the file has the key, whatever stood in either of them before. -/
theorem labels_resolve {t t' : Tree} {o : Options} {c : Config} {g : Generated}
    (created : create t o c = (t', .ok g)) :
    ∃ p content, make t o c = .ok p ∧ LabelsResolve t' c p g content := by
  obtain ⟨p, run⟩ := create_done created
  obtain ⟨content, read, keys⟩ := run.language
  have settles := Options.settle_ok (make_ok run.made).settled
  have record : IsWordy (formOf c p.settings p.resource).record.toList :=
    Form.wordy_record settles.model
  refine ⟨p, content, run.made,
    { file := ?file
      stem := by rw [run.languagePath, Settings.languagePath_stem settles.group]
      read := by rw [run.languagePath, read]
      view := by rw [run.path, run.view]
      rendered := made_text run.made
      markup := p.settings.formPlaceholders_markup _ _ _
      placed := fun before after split => made_around run.made split
      shown := fun token f member shown framed => made_shows run.made token member shown framed
      carried := fun f member => Form.label_carried_iff record (field_wordy run.made member)
      labels := ?labels
      defined := ?defined }⟩
  case file =>
    rw [run.languagePath, Settings.languagePath, settles.paths, settles.locale]
    rfl
  case labels =>
    intro f member label
    rw [← formOf_label]
    exact Form.labelled_iff (label_quiet run.made member '<' (by simp))
  case defined =>
    intro f member
    refine keys (f.name, f.label) ?_
    simp only [languageEntries, Language.entriesFor, List.mem_cons, List.mem_map]
    exact Or.inr (Or.inr ⟨f, member, rfl⟩)

def tokenTree : Tree :=
  ⟨[("post.json", .file (.text ("[\x7b\"name\": \"key\", \"html-type\": \"hidden\"\x7d, "
      ++ "\x7b\"name\": \"title\", \"label\": \"In\"\x7d]"))),
    ("default", .folder [
      ("form.blade.stub", .file (.text "<form>\n[% form_fields_html %]\n</form>"))]),
    ("site", .folder [("en", .folder [
      ("texts.php", .file (.text "<?php return [\n'key' => 'Schl'\n];\n"))])])], []⟩

def textsOptions : Options := { modelName := "Post", languageFileName := some "texts" }

def titleField : Field := { Field.ofName "title" .text with label := "In" }

theorem token_form {p : Plan} (made : make tokenTree textsOptions sharedConfig = .ok p) :
    p.stub.text = "<form>\n[% form_fields_html %]\n</form>" ∧ titleField ∈ p.resource.fields ∧
      (formOf sharedConfig p.settings p.resource).placedLabel titleField
          (Blade.echo s!"trans('{p.settings.languageFileName}.{titleField.name}')")
        = ("<label for=\"title\" class=\"col-md-2 control-label\">"
          ++ "\x7b\x7b trans('texts.title') \x7d\x7d</label>").toList := by
  have found : (make tokenTree textsOptions sharedConfig).toOption.map (fun p =>
      (p.stub.text, decide (titleField ∈ p.resource.fields),
        (formOf sharedConfig p.settings p.resource).placedLabel titleField
          (Blade.echo s!"trans('{p.settings.languageFileName}.{titleField.name}')")))
      = some ("<form>\n[% form_fields_html %]\n</form>", true,
        ("<label for=\"title\" class=\"col-md-2 control-label\">"
          ++ "\x7b\x7b trans('texts.title') \x7d\x7d</label>").toList) := by decide +kernel
  rw [made] at found
  simp only [Except.toOption, Option.map_some, Option.some.injEq, Prod.mk.injEq,
    decide_eq_true_eq] at found
  exact found

theorem token_labels_resolve :
    ∃ t' g p content, create tokenTree textsOptions sharedConfig = (t', .ok g) ∧
      LabelsResolve t' sharedConfig p g content ∧ g.language.path = ⟨"site/en/texts.php"⟩ ∧
      content = "<?php return [\n'key' => 'Schl',\n    'model_name' => 'Post',\n"
        ++ "    'model_plural' => 'Posts',\n    'title' => 'In',\n];\n" ∧
      ∃ view, t'.read? g.path = some view ∧
        ("<label for=\"title\" class=\"col-md-2 control-label\">"
          ++ "\x7b\x7b trans('texts.title') \x7d\x7d</label>").toList <:+: view.toList := by
  have path : (create tokenTree textsOptions sharedConfig).2.toOption.map
      (fun g => g.language.path) = some ⟨"site/en/texts.php"⟩ := by decide +kernel
  have file : (create tokenTree textsOptions sharedConfig).1.read? ⟨"site/en/texts.php"⟩
      = some ("<?php return [\n'key' => 'Schl',\n    'model_name' => 'Post',\n"
        ++ "    'model_plural' => 'Posts',\n    'title' => 'In',\n];\n") := by
    decide +kernel
  cases done : (create tokenTree textsOptions sharedConfig).2 with
  | error e =>
    rw [done] at path
    cases path
  | ok g =>
    have created : create tokenTree textsOptions sharedConfig
        = ((create tokenTree textsOptions sharedConfig).1, .ok g) := by
      rw [← done]
    obtain ⟨p, content, made, resolve⟩ := labels_resolve created
    rw [done] at path
    have place : g.language.path = ⟨"site/en/texts.php"⟩ := Option.some.inj path
    rw [← place, resolve.read] at file
    obtain ⟨stub, member, label⟩ := token_form made
    have token : (Placeholders.token "form_fields_html").toList <:+: p.stub.text.toList := by
      rw [stub]
      exact ⟨"<form>\n".toList, "\n</form>".toList, by decide⟩
    have shown := resolve.shown token titleField member (by decide) (by decide)
    rw [label] at shown
    exact ⟨_, g, p, content, created, resolve, place, Option.some.inj file, p.text, resolve.view,
      shown⟩

end Plan

end BladeForm
