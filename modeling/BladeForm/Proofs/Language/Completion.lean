import BladeForm.Language.File
import BladeForm.Proofs.Language.Merge
import BladeForm.Proofs.Tree

/-!
Completing a language file that is already there. Whatever text it holds, after a successful
update it has every key of the model, it has lost no identifier key, it differs from before by
the inserted lines only, and a second update changes nothing.
-/
namespace BladeForm.Language
open Text

theorem entries_identifiers {fields : List Field} (model : String)
    (names : ∀ f ∈ fields, Name.isIdentifier f.name = true) :
    IdentifierKeys (entriesFor fields model) := by
  intro e member
  simp only [entriesFor, List.mem_cons, List.mem_map] at member
  rcases member with rfl | rfl | ⟨f, field, rfl⟩
  · exact (by decide : Name.isIdentifier "model_name" = true)
  · exact (by decide : Name.isIdentifier "model_plural" = true)
  · exact names f field

theorem mem_missing {content : String} {es : List Entry} {e : Entry} :
    e ∈ missing content es ↔ e ∈ es ∧ e.1 ∉ definedKeys content := by
  simp [missing]

theorem missing_nil_iff {content : String} {es : List Entry} :
    missing content es = [] ↔ ∀ e ∈ es, e.1 ∈ definedKeys content := by
  simp [missing]

theorem save_ok {t t' : Tree} {path : Path} {text : String} {added : List String} {u : Update} :
    save t path text added = (t', .ok u) ↔ t.write path text = (t', true) ∧ u = ⟨path, added⟩ := by
  unfold save
  constructor
  · intro saved
    split at saved
    · next written =>
      cases saved
      exact ⟨written, rfl⟩
    · cases saved
  · rintro ⟨written, rfl⟩
    rw [written]

theorem update_present {t t' : Tree} {path : Path} {content : String} {es : List Entry} {u : Update}
    (present : t.read? path = some content) :
    update t path es = (t', .ok u) ↔
      missing content es = [] ∧ t' = t ∧ u = ⟨path, []⟩ ∨
      missing content es ≠ [] ∧ ∃ merged,
        append content (entryLines (missing content es)) = .ok merged ∧
        t.write path merged = (t', true) ∧ u = ⟨path, (missing content es).map (·.1)⟩ := by
  have there := Tree.read_has present
  unfold update
  simp only [there, present, Bool.not_true, Bool.false_eq_true, ↓reduceIte, List.isEmpty_iff]
  by_cases complete : missing content es = []
  · simp [complete, eq_comm]
  · simp only [complete, ↓reduceIte, false_and, ne_eq, not_false_eq_true, true_and, false_or]
    constructor
    · intro updated
      split at updated
      · cases updated
      · next merged done => exact ⟨merged, done, save_ok.1 updated⟩
    · rintro ⟨merged, done, saved⟩
      rw [done]
      exact save_ok.2 saved

theorem update_complete {t : Tree} {path : Path} {content : String} {es : List Entry}
    (present : t.read? path = some content) (complete : ∀ e ∈ es, e.1 ∈ definedKeys content) :
    update t path es = (t, .ok ⟨path, []⟩) :=
  (update_present present).2 (Or.inl ⟨missing_nil_iff.2 complete, rfl, rfl⟩)

theorem merged_keys {content merged : String} {new : List Entry}
    (done : append content (entryLines new) = .ok merged) {key : String}
    (valid : Name.isIdentifier key = true)
    (known : key ∈ definedKeys content ∨ key ∈ new.map (·.1)) : key ∈ definedKeys merged := by
  obtain ⟨head, blanks, after, inserted⟩ := append_inserts done
  rw [identifier_found_iff valid] at known ⊢
  rcases known with old | added
  · exact opensLine_insertion inserted (identifier_free valid (by decide)) old
  · obtain ⟨e, member, rfl⟩ := List.mem_map.1 added
    have ends : (head ++ (separatorFor head ++ ['\n'])).getLast? = some '\n' := by
      simp [List.getLast?_append]
    have line := opensLine_entry member (identifier_plain valid) ends (']' :: ';' :: after)
    rw [inserted.new, entryLines_toList]
    simpa using line

def FromLastClosing (before tail : String) : Prop :=
  (∃ after, tail = "];" ++ after) ∧
    ∀ b r, before ++ tail = b ++ "];" ++ r → b.length ≤ before.length

/-- New lines stand before the last closing bracket, where blanks were; a comma may stand before
    them, and the rest is as it was. -/
def InsertedLines (content merged lines : String) : Prop :=
  ∃ head blanks separator tail : String,
    content = head ++ blanks ++ tail ∧ FromLastClosing (head ++ blanks) tail ∧
    blanks.toList.all isBlank = true ∧ (separator = "" ∨ separator = ",") ∧
    merged = head ++ separator ++ "\n" ++ lines ++ tail

theorem append_inserted {content merged lines : String}
    (done : append content lines = .ok merged) : InsertedLines content merged lines := by
  obtain ⟨head, blanks, after, inserted⟩ := append_inserts done
  refine ⟨String.ofList head, String.ofList blanks, String.ofList (separatorFor head),
    "];" ++ String.ofList after, ?_, ⟨⟨_, rfl⟩, ?_⟩, by simpa using inserted.blank, ?_, ?_⟩
  · rw [← String.toList_inj, inserted.old]
    simp
  · intro b r same
    have split : content.toList = b.toList ++ ']' :: ';' :: r.toList := by
      have := congrArg String.toList same
      rw [inserted.old]
      simpa using this
    have := inserted.last _ _ split
    simpa [← String.length_toList] using this
  · rcases inserted.comma with none | one
    · exact Or.inl (by simp [none])
    · exact Or.inr (by rw [one])
  · rw [← String.toList_inj, inserted.new]
    simp

/-- Completing a file of any text: every key of the model is found afterwards and no identifier
    key is lost, the text is the old one but for the inserted lines, and a second update finds
    nothing to do. -/
theorem completion_keeps_keys {t t' : Tree} {path : Path} {content model : String}
    {fields : List Field} {u : Update} (names : ∀ f ∈ fields, Name.isIdentifier f.name = true)
    (present : t.read? path = some content)
    (updated : update t path (entriesFor fields model) = (t', .ok u)) :
    ∃ content', t'.read? path = some content' ∧
      u = ⟨path, (missing content (entriesFor fields model)).map (·.1)⟩ ∧
      (∀ e ∈ entriesFor fields model, e.1 ∈ definedKeys content') ∧
      (∀ key ∈ definedKeys content, Name.isIdentifier key = true → key ∈ definedKeys content') ∧
      (missing content (entriesFor fields model) = [] ∧ content' = content ∨
        missing content (entriesFor fields model) ≠ [] ∧
          InsertedLines content content'
            (String.join ((missing content (entriesFor fields model)).map entryLine))) ∧
      update t' path (entriesFor fields model) = (t', .ok ⟨path, []⟩) := by
  have identifiers := entries_identifiers model names
  rcases (update_present present).1 updated with
    ⟨complete, rfl, rfl⟩ | ⟨incomplete, merged, done, written, rfl⟩
  · have all := missing_nil_iff.1 complete
    exact ⟨content, present, by simp [complete], all, fun _ member _ => member,
      Or.inl ⟨complete, rfl⟩, update_complete present all⟩
  · have all : ∀ e ∈ entriesFor fields model, e.1 ∈ definedKeys merged := by
      intro e member
      refine merged_keys done (identifiers e member) ?_
      by_cases known : e.1 ∈ definedKeys content
      · exact Or.inl known
      · exact Or.inr (List.mem_map_of_mem (mem_missing.2 ⟨member, known⟩))
    have read := Tree.write_read written
    exact ⟨merged, read, rfl, all,
      fun key member valid => merged_keys done valid (Or.inl member),
      Or.inr ⟨incomplete, append_inserted done⟩, update_complete read all⟩

def postsPath : Path := pathOf ⟨"lang"⟩ "en" "posts"

def postsTree (text : String) : Tree :=
  ⟨[("lang", .folder [("en", .folder [("posts.php", .file (.text text))])])], []⟩

theorem posts_read (text : String) : (postsTree text).read? postsPath = some text := rfl

theorem posts_write (text new : String) :
    (postsTree text).write postsPath new = (postsTree new, true) := rfl

def brokenContent : String := "<?php return [\n  'title' => 'a',\n'odd\n  ];' => 'b' ]"

def brokenFields : List Field :=
  [Field.ofName "title" .text, { Field.ofName "body" .textarea with label := "it's\n];\n'x' =>" }]

theorem broken_file_completed :
    (∀ f ∈ brokenFields, Name.isIdentifier f.name = true) ∧
    (postsTree brokenContent).read? postsPath = some brokenContent ∧
    ∃ t', update (postsTree brokenContent) postsPath (entriesFor brokenFields "Post")
        = (t', .ok ⟨postsPath, ["model_name", "model_plural", "body"]⟩) ∧
      ∃ content', t'.read? postsPath = some content' ∧
        (∀ e ∈ entriesFor brokenFields "Post", e.1 ∈ definedKeys content') ∧
        update t' postsPath (entriesFor brokenFields "Post")
          = (t', .ok ⟨postsPath, []⟩) := by
  have names : ∀ f ∈ brokenFields, Name.isIdentifier f.name = true := by decide
  have present : (postsTree brokenContent).read? postsPath = some brokenContent := rfl
  have updated : update (postsTree brokenContent) postsPath (entriesFor brokenFields "Post")
      = ((update (postsTree brokenContent) postsPath (entriesFor brokenFields "Post")).1,
        .ok ⟨postsPath, ["model_name", "model_plural", "body"]⟩) := rfl
  obtain ⟨content', read, _, all, _, _, again⟩ := completion_keeps_keys names present updated
  exact ⟨names, present, _, updated, content', read, all, again⟩

end BladeForm.Language
