import BladeForm.Proofs.Form.Tags
import BladeForm.Proofs.Resource.Acceptance
import Mathlib.Data.List.Perm.Basic
import Mathlib.Data.Set.List

/-!
The order of options. A resource file writes the options of a field as members of an object, and
what is read of an object are its members by ascending key. So the options of a field, and with
them the options of its select, stand in the order of their keys and not in that of the file.
-/
namespace BladeForm

namespace Json

def RecordShape.given? (r : RecordShape) (key : String) : Value → Option Value
  | .object ms => lastMember? key ms
  | .array vs => ((r.members.map (·.1)).zip vs).lookup key
  | _ => none

theorem lookup_zip_map (key : String) (keys : List String) (vs : List Value) :
    (keys.zip (vs.map Value.sorted)).lookup key = ((keys.zip vs).lookup key).map Value.sorted := by
  induction keys generalizing vs with
  | nil => rfl
  | cons k keys ih =>
    cases vs with
    | nil => rfl
    | cons v vs =>
      rw [List.map_cons, List.zip_cons_cons, List.zip_cons_cons, lookup_cons_if, lookup_cons_if, ih]
      split <;> rfl

theorem asRecord_members {σ : Type} {r : RecordShape} {member : σ → String → Value → Decode σ}
    {empty d : σ} {w : Value} (distinct : (r.members.map (·.1)).Nodup)
    (read : asRecord r member empty w.sorted = .ok d) : ∃ ms : List (String × Value),
      (ms.map (·.1)).Nodup ∧ (∀ key, ms.lookup key = (r.given? key w).map Value.sorted) ∧
      ms.foldlM (fun d m => member d m.1 m.2) empty = .ok d := by
  cases w with
  | object ms =>
    refine ⟨sortedMembers [] ms, ?_, fun key => ?_, read⟩
    · have ascending := ascending_sortedMembers List.Pairwise.nil ms
      exact List.pairwise_map.2 (ascending.imp fun less => ne_of_lt less)
    · rw [lookup_sortedMembers, RecordShape.given?]
      simp
  | array vs =>
    refine ⟨(r.members.map (·.1)).zip (vs.map Value.sorted), ?_, fun key => ?_, ?_⟩
    · rw [List.zip_eq_zip_take_min, List.map_fst_zip (by simp)]
      exact distinct.sublist (List.take_sublist _ _)
    · exact lookup_zip_map key _ vs
    · rw [Value.sorted, sortedItems_map, asRecord, bind_ok_iff] at read
      obtain ⟨d', folded, kept⟩ := read
      split at kept
      · cases kept
      · split_ifs at kept
        cases kept
        rw [List.zip_map_left, List.foldlM_map]
        exact folded
  | _ => cases read

theorem asTexts_object {ms : List (String × Value)} {ts : List (String × String)} :
    asTexts (.object ms) = .ok ts ↔ ms = ts.map fun t => (t.1, .string t.2) := by
  have each {m : String × Value} {t : String × String} :
      ((asString m.2).map fun s => (m.1, s)) = .ok t ↔ m = (t.1, .string t.2) := by
    obtain ⟨key, v⟩ := m
    obtain ⟨key', s⟩ := t
    cases v <;> simp [asString, Except.map]
  rw [asTexts, mapM_ok_iff]
  simp only [each]
  constructor
  · intro pairs
    induction pairs with
    | nil => rfl
    | cons first _ ih => rw [first, ih, List.map_cons]
  · rintro rfl
    rw [List.forall₂_map_left_iff, List.forall₂_same]
    exact fun _ _ => rfl

theorem sorted_string {v : Value} {s : String} (same : v.sorted = .string s) : v = .string s := by
  cases v with
  | string => exact same
  | _ => cases same

theorem asTexts_sorted {ms : List (String × Value)} {ts : List (String × String)}
    (distinct : (ms.map (·.1)).Nodup) (decoded : asTexts (Value.object ms).sorted = .ok ts) :
    ∃ pairs : List (String × String), ms = pairs.map (fun p => (p.1, .string p.2)) ∧
      ts.Perm pairs ∧ Ascending ts := by
  have sorted : sortedMembers [] ms = ts.map fun t => (t.1, .string t.2) :=
    asTexts_object.1 decoded
  have perm : (ts.map fun t => (t.1, Value.string t.2)).Perm
      (ms.map fun m => (m.1, m.2.sorted)) := by
    rw [← sorted]
    exact perm_sortedMembers distinct
  have texts : ∀ m ∈ ms, ∃ p : String × String, (p.1, Value.string p.2) = m := by
    intro m member
    have inside := perm.mem_iff.2 (List.mem_map_of_mem member)
    obtain ⟨t, _, same⟩ := List.mem_map.1 inside
    obtain ⟨key, value⟩ := Prod.mk.inj same
    exact ⟨(m.1, t.2), Prod.ext rfl (sorted_string value.symm).symm⟩
  have range : ms ∈ Set.range (List.map fun p : String × String => (p.1, Value.string p.2)) := by
    rw [Set.range_list_map]
    exact texts
  obtain ⟨pairs, rfl⟩ := range
  have written : Function.Injective fun p : String × String => (p.1, Value.string p.2) := by
    rintro ⟨key, s⟩ ⟨key', s'⟩ same
    cases same
    rfl
  refine ⟨pairs, rfl, ?_, ?_⟩
  · rw [List.map_map] at perm
    exact (List.map_perm_map_iff written).1 perm
  · have ascending := ascending_sortedMembers List.Pairwise.nil (pairs.map fun p =>
      (p.1, Value.string p.2))
    rw [sorted, Ascending, List.pairwise_map] at ascending
    exact ascending

theorem ascending_unique {α : Type} {ms ns : List (String × α)} (one : Ascending ms)
    (other : Ascending ns) (perm : ms.Perm ns) : ms = ns :=
  perm.eq_of_pairwise (fun _ _ _ _ less more => absurd less (lt_asymm more)) one other

end Json

namespace FieldDraft
open Json

theorem shape_distinct : (shape.members.map (·.1)).Nodup := by decide

theorem member_options {d d' : FieldDraft} {key : String} {v : Value}
    (taken : member d key v = .ok d') :
    if key = "options" then asTexts v = .ok d'.options else d'.options = d.options := by
  unfold member at taken
  split at taken
  case h_5 =>
    obtain ⟨ts, decoded, kept⟩ := bind_ok_iff.1 taken
    cases kept
    exact decoded
  case h_11 _ _ _ _ _ other _ _ _ _ _ =>
    cases taken
    rw [if_neg other]
  all_goals
    obtain ⟨a, _, kept⟩ := bind_ok_iff.1 taken
    cases kept
    rfl

theorem fold_options {ms : List (String × Value)} {d d' : FieldDraft}
    (distinct : (ms.map (·.1)).Nodup)
    (folded : ms.foldlM (fun d m => member d m.1 m.2) d = .ok d') :
    (∀ v, ms.lookup "options" = some v → asTexts v = .ok d'.options) ∧
      (ms.lookup "options" = none → d'.options = d.options) := by
  induction ms generalizing d with
  | nil =>
    cases folded
    refine ⟨fun v found => ?_, fun _ => rfl⟩
    cases found
  | cons m ms ih =>
    obtain ⟨key, v⟩ := m
    obtain ⟨new, distinct⟩ := List.nodup_cons.1 distinct
    obtain ⟨next, taken, rest⟩ := bind_ok_iff.1 folded
    obtain ⟨given, kept⟩ := ih distinct rest
    have taken := member_options taken
    rw [lookup_cons_if]
    split_ifs at taken ⊢ with here here' here'
    · subst here
      have absent : ms.lookup "options" = none := by
        rw [List.lookup_eq_none_iff]
        intro n member
        have known : n.1 ∈ ms.map (·.1) := List.mem_map_of_mem member
        have other : "options" ≠ n.1 := by
          intro same
          rw [← same] at known
          exact new known
        simpa using other
      rw [kept absent]
      refine ⟨fun u same => ?_, fun none => ?_⟩
      · cases same
        exact taken
      · cases none
    · exact absurd here.symm here'
    · exact absurd here'.symm here
    · exact ⟨given, fun none => (kept none).trans taken⟩

theorem finish_options {d : FieldDraft} {f : Field} (finished : d.finish = .ok f) :
    f.options = d.options := by
  unfold finish at finished
  split at finished
  · cases finished
  · cases finished
    rfl

theorem decode_options {e v : Value} {f : Field} (decoded : Field.decode e.sorted = .ok f)
    (given : shape.given? "options" e = some v) : asTexts v.sorted = .ok f.options := by
  obtain ⟨d, read, finished⟩ := bind_ok_iff.1 decoded
  obtain ⟨ms, distinct, members, folded⟩ := asRecord_members shape_distinct read
  have found : ms.lookup "options" = some v.sorted := by rw [members, given, Option.map_some]
  rw [finish_options finished]
  exact (fold_options distinct folded).1 v.sorted found

end FieldDraft

namespace Form

/-- The values of the options in a row, each with the text up to its closing tag. -/
def shownOptions : List Part → List (List Char × List Char)
  | p :: q :: ps =>
    if p.tag.element = "option" then
      ((p.tag.value? "value").getD [], q.before) :: shownOptions ps
    else shownOptions (q :: ps)
  | _ => []

theorem shownOptions_parts (m : Form) (f : Field) (os : List (String × String)) (rest : List Part) :
    shownOptions ((os.flatMap fun o => m.optionParts f o.1 o.2) ++ rest)
      = os.map (fun o => (o.1.toList, o.2.toList)) ++ shownOptions rest := by
  induction os with
  | nil => rfl
  | cons o os ih =>
    rw [List.flatMap_cons, optionParts, List.append_assoc, List.cons_append, List.cons_append,
      List.nil_append, shownOptions, ih]
    rfl

theorem shownOptions_row (m : Form) (f : Field) : shownOptions (m.optionsRow f).more
    = ([], ("Select " ++ Name.lowerCase f.label).toList)
      :: f.options.map fun o => (o.1.toList, o.2.toList) := by
  rw [optionsRow, promptParts, List.append_assoc]
  dsimp only
  rw [List.cons_append, List.cons_append, List.nil_append, shownOptions, if_pos rfl,
    shownOptions_parts]
  exact congrArg (_ :: ·) (List.append_nil _)

end Form

namespace Resource
open Json

/-- Options that a file writes under different keys are loaded all of them, by ascending key, and
    the select of their field shows them in this order. So their order is that of the file exactly
    if the file writes its keys in ascending order. -/
theorem options_by_key {t : Tree} {name : String} {base : Path} {languageFile : Option String}
    {r : Resource} (loaded : load t name base languageFile = .ok r) {text : String} {w : Value}
    {es : List Value} (read : t.read? (locate t name base) = some text)
    (written : Writes maxDepth (.padded w) text.toList) (given : fieldItems? w = some es)
    {i : Nat} {e : Value} {f : Field} (element : es[i]? = some e) (field : r.fields[i]? = some f)
    {ms : List (String × Value)} (options : FieldDraft.shape.given? "options" e = some (.object ms))
    (distinct : (ms.map (·.1)).Nodup) (m : Form) : ∃ pairs : List (String × String),
      ms = pairs.map (fun p => (p.1, .string p.2)) ∧ f.options.Perm pairs ∧ Ascending f.options ∧
      (f.options = pairs ↔ Ascending pairs) ∧
      (m.optionsSelect f).toList = (m.optionsRow f).text ∧
      Form.shownOptions (m.optionsRow f).more = ([], ("Select " ++ Name.lowerCase f.label).toList)
        :: f.options.map fun o => (o.1.toList, o.2.toList) := by
  have decoded : Field.decode e.sorted = .ok f := by
    have all := load_items loaded read written given
    obtain ⟨inside, rfl⟩ := List.getElem?_eq_some_iff.1 element
    obtain ⟨inside', rfl⟩ := List.getElem?_eq_some_iff.1 field
    exact all.get inside inside'
  obtain ⟨pairs, same, perm, ascending⟩ :=
    asTexts_sorted distinct (FieldDraft.decode_options decoded options)
  refine ⟨pairs, same, perm, ascending, ⟨?_, ?_⟩, m.optionsSelect_text f, m.shownOptions_row f⟩
  · intro kept
    rwa [kept] at ascending
  · exact fun other => ascending_unique ascending other perm

def gradeOptions : List (String × Value) := [("b", .string "Beta"), ("a", .string "Alpha")]

def gradeItem : Value := .object
  [("name", .string "grade"), ("html-type", .string "select"), ("options", .object gradeOptions)]

def gradeText : String :=
  "[\x7b\"name\":\"grade\",\"html-type\":\"select\","
    ++ "\"options\":\x7b\"b\":\"Beta\",\"a\":\"Alpha\"\x7d\x7d]"

def gradeField : Field :=
  { Field.ofName "grade" .select with options := [("a", "Alpha"), ("b", "Beta")] }

def gradeForm : Form := ⟨[gradeField], "Post", {}, none⟩

theorem grade_written : Writes maxDepth (.padded (.array [gradeItem])) gradeText.toList := by
  have options {n : Nat} : Writes (n + 1) (.padded (.object gradeOptions))
      "\x7b\"b\":\"Beta\",\"a\":\"Alpha\"\x7d".toList :=
    (Writes.object (.member (key_plain (by decide)) (text_plain (by decide))
      (.lastMember (key_plain (by decide)) (text_plain (by decide))))).bare
  exact (Writes.array (.lastItem (Writes.object
    (.member (key_plain (by decide)) (text_plain (by decide))
    (.member (key_plain (by decide)) (text_plain (by decide))
    (.lastMember (key_plain (by decide)) options)))).bare)).bare

theorem grade_loaded : load (fileTree gradeText) "post" .empty none
    = .ok ⟨⟨"post.json"⟩, [gradeField], none⟩ :=
  ok_of_toOption (by decide +kernel)

theorem grade_options_sorted :
    load (fileTree gradeText) "post" .empty none = .ok ⟨⟨"post.json"⟩, [gradeField], none⟩ ∧
    (fileTree gradeText).read? (locate (fileTree gradeText) "post" .empty) = some gradeText ∧
    Writes maxDepth (.padded (.array [gradeItem])) gradeText.toList ∧
    fieldItems? (.array [gradeItem]) = some [gradeItem] ∧
    FieldDraft.shape.given? "options" gradeItem = some (.object gradeOptions) ∧
    (gradeOptions.map (·.1)).Nodup ∧ ∃ pairs : List (String × String),
      gradeOptions = pairs.map (fun p => (p.1, .string p.2)) ∧ gradeField.options.Perm pairs ∧
      Ascending gradeField.options ∧ (gradeField.options = pairs ↔ Ascending pairs) ∧
      (gradeForm.optionsSelect gradeField).toList = (gradeForm.optionsRow gradeField).text ∧
      Form.shownOptions (gradeForm.optionsRow gradeField).more
        = ([], ("Select " ++ Name.lowerCase gradeField.label).toList)
          :: gradeField.options.map fun o => (o.1.toList, o.2.toList) := by
  have read : (fileTree gradeText).read? (locate (fileTree gradeText) "post" .empty)
      = some gradeText := by decide +kernel
  have distinct : (gradeOptions.map (·.1)).Nodup := by decide
  have element : [gradeItem][0]? = some gradeItem := rfl
  have field : [gradeField][0]? = some gradeField := rfl
  exact ⟨grade_loaded, read, grade_written, rfl, rfl, distinct,
    options_by_key grade_loaded read grade_written rfl element field rfl distinct gradeForm⟩

/-- The file writes the second option first, and the select shows it last. -/
theorem grade_options_turned :
    Writes maxDepth (.padded (.array [gradeItem])) gradeText.toList ∧
    FieldDraft.shape.given? "options" gradeItem = some (.object gradeOptions) ∧
    gradeOptions.map (·.1) = ["b", "a"] ∧
    load (fileTree gradeText) "post" .empty none = .ok ⟨⟨"post.json"⟩, [gradeField], none⟩ ∧
    gradeField.options.map (·.1) = ["a", "b"] ∧
    (Form.shownOptions (gradeForm.optionsRow gradeField).more).map (·.1)
      = ["".toList, "a".toList, "b".toList] :=
  ⟨grade_written, rfl, rfl, grade_loaded, rfl, by decide +kernel⟩

end Resource

end BladeForm
