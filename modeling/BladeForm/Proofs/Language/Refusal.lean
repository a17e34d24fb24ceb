import BladeForm.Proofs.Language.Labels

/-!
When a merge is refused. A file that returns an array in brackets is never refused, but the merge
looks for the word and for a closing bracket only, wherever they stand. So of the files that return
no such array it refuses those that lack one of the two, and puts its lines into all others.
-/
namespace BladeForm.Text

theorem contains_iff {needle text : List Char} : contains needle text = true ↔ needle <:+: text := by
  constructor
  · intro found
    obtain ⟨⟨before, rest⟩, split⟩ := Option.isSome_iff_exists.1 found
    exact ⟨before, rest, (splitFirst?_eq split).symm⟩
  · rintro ⟨before, rest, rfl⟩
    rw [List.append_assoc]
    exact contains_occurrence needle before rest

theorem splitLast?_none_iff {needle text : List Char} (ne : needle ≠ []) :
    splitLast? needle text = none ↔ ¬ needle <:+: text := by
  constructor
  · rintro absent ⟨before, rest, same⟩
    exact splitLast?_none absent before rest (by rw [← same, List.append_assoc])
  · intro absent
    rw [Option.eq_none_iff_forall_ne_some]
    rintro ⟨before, rest⟩ found
    exact absent ⟨before, rest, by rw [List.append_assoc, ← (splitLast?_splits ne found).1]⟩

end BladeForm.Text

namespace BladeForm.Language
open Text Php

/-- The word stands somewhere in the text: in code, in a comment or within another word. -/
def Mentions (word content : String) : Prop := word.toList <:+: content.toList

/-- The word `return`, blanks and an opening bracket stand before the last closing bracket. -/
def ReturnsArray (content : String) : Prop :=
  ∃ before after start gap inside : List Char,
    SplitsLast [']', ';'] content.toList before after ∧
    before = start ++ ("return".toList ++ (gap ++ '[' :: inside)) ∧ gap.all isAsciiBlank = true

theorem array_mentions {content : String} (array : ReturnsArray content) :
    Mentions "return" content ∧ Mentions "];" content := by
  obtain ⟨before, after, start, gap, inside, last, split, _⟩ := array
  constructor
  · exact ⟨start, gap ++ '[' :: inside ++ ']' :: ';' :: after, by rw [last.1, split]; simp⟩
  · exact ⟨before, after, by rw [last.1]; simp⟩

theorem append_error_iff {content lines : String} {e : MergeError} :
    append content lines = .error e ↔ e = .noReturn ∧ ¬ Mentions "return" content ∨
      e = .noClosing ∧ Mentions "return" content ∧ ¬ Mentions "];" content := by
  have word : Mentions "return" content
      ↔ contains ['r', 'e', 't', 'u', 'r', 'n'] content.toList = true := contains_iff.symm
  have bracket : splitLast? [']', ';'] content.toList = none ↔ ¬ Mentions "];" content :=
    splitLast?_none_iff (by simp)
  rw [word, ← bracket, append]
  cases contains ['r', 'e', 't', 'u', 'r', 'n'] content.toList with
  | false => simp [eq_comm]
  | true =>
    cases splitLast? [']', ';'] content.toList with
    | none => simp [eq_comm]
    | some r => simp

theorem append_fails_iff {content lines : String} :
    (∃ e, append content lines = .error e) ↔
      ¬ (Mentions "return" content ∧ Mentions "];" content) := by
  constructor
  · rintro ⟨e, failed⟩ ⟨word, bracket⟩
    rcases append_error_iff.1 failed with ⟨_, noWord⟩ | ⟨_, _, noBracket⟩
    · exact noWord word
    · exact noBracket bracket
  · intro lacks
    by_cases word : Mentions "return" content
    · exact ⟨_, append_error_iff.2 (Or.inr ⟨rfl, word, fun bracket => lacks ⟨word, bracket⟩⟩)⟩
    · exact ⟨_, append_error_iff.2 (Or.inl ⟨rfl, word⟩)⟩

theorem inserted_differs {content merged : String} {es : List Entry} (nonempty : es ≠ [])
    (inserted : InsertedLines content merged (entryLines es)) : merged ≠ content := by
  obtain ⟨head, blanks, separator, tail, old, _, blank, _, new⟩ := inserted
  intro same
  obtain ⟨e, rest, rfl⟩ := List.exists_cons_of_ne_nil nonempty
  have texts : blanks.toList ++ tail.toList
      = (separator.toList ++ '\n' :: (entryLines (e :: rest)).toList) ++ tail.toList := by
    have := congrArg String.toList (old.symm.trans (same.symm.trans new))
    simpa using this
  have inner := List.append_cancel_right texts
  have quote : '\'' ∈ blanks.toList := by
    rw [inner, entryLines_toList]
    simp [lineChars]
  have := List.all_eq_true.1 blank _ quote
  contradiction

variable {t : Tree} {path : Path} {content : String} {es : List Entry}

theorem update_incomplete (present : t.read? path = some content)
    (incomplete : missing content es ≠ []) : update t path es =
      match append content (entryLines (missing content es)) with
      | .error e => (t, .error (.languageFile path e.fault))
      | .ok merged => save t path merged ((missing content es).map (·.1)) := by
  unfold update
  cases done : append content (entryLines (missing content es)) with
  | error e => simp [Tree.read_has present, present, incomplete, done]
  | ok merged => simp [Tree.read_has present, present, incomplete, done]

theorem save_refuses_nothing {t' : Tree} {text : String} {added : List String}
    {fault : LanguageFault} : save t path text added ≠ (t', .error (.languageFile path fault)) := by
  unfold save
  split
  · simp
  · simp

/-- Where a key is missing, an update leaves all as it is and names the fault exactly if the word or
    the bracket stands nowhere in the text. Both stand in every file that returns an array, and a
    file with both is given other text, whether it returns an array or not. -/
theorem update_refused_iff {fields : List Field} {model : String}
    (present : t.read? path = some content)
    (lacks : ∃ e ∈ entriesFor fields model, e.1 ∉ definedKeys content) :
    ((∃ fault, update t path (entriesFor fields model) = (t, .error (.languageFile path fault))) ↔
      ¬ (Mentions "return" content ∧ Mentions "];" content)) ∧
    (ReturnsArray content → Mentions "return" content ∧ Mentions "];" content) ∧
    (Mentions "return" content → Mentions "];" content →
      ∃ merged, merged ≠ content ∧
        InsertedLines content merged (entryLines (missing content (entriesFor fields model))) ∧
        update t path (entriesFor fields model)
          = save t path merged ((missing content (entriesFor fields model)).map (·.1))) := by
  obtain ⟨e, member, new⟩ := lacks
  have incomplete : missing content (entriesFor fields model) ≠ [] :=
    List.ne_nil_of_mem (mem_missing.2 ⟨member, new⟩)
  have updated := update_incomplete present incomplete
  refine ⟨?_, array_mentions, ?_⟩
  · rw [← append_fails_iff, updated]
    constructor
    · rintro ⟨fault, refused⟩
      split at refused
      · next e failed => exact ⟨e, failed⟩
      · exact absurd refused save_refuses_nothing
    · rintro ⟨e, failed⟩
      rw [failed]
      exact ⟨e.fault, rfl⟩
  · intro word bracket
    cases done : append content (entryLines (missing content (entriesFor fields model))) with
    | error e => exact absurd ⟨word, bracket⟩ (append_fails_iff.1 ⟨e, done⟩)
    | ok merged =>
      have inserted := append_inserted done
      rw [done] at updated
      exact ⟨merged, inserted_differs incomplete inserted, inserted, updated⟩

def calledContent : String := "<?php\n\nreturn array('title' => 'Titre');\n"

theorem called_file_refused :
    (postsTree calledContent).read? postsPath = some calledContent ∧
    (∃ e ∈ titleEntries, e.1 ∉ definedKeys calledContent) ∧ ¬ Mentions "];" calledContent ∧
    ∃ fault, update (postsTree calledContent) postsPath titleEntries
      = (postsTree calledContent, .error (.languageFile postsPath fault)) := by
  have lacks : ∃ e ∈ titleEntries, e.1 ∉ definedKeys calledContent := by decide +kernel
  have noBracket : ¬ Mentions "];" calledContent := by
    unfold Mentions
    decide +kernel
  exact ⟨posts_read _, lacks, noBracket,
    (update_refused_iff (posts_read _) lacks).1.2 fun both => noBracket both.2⟩

def otherHead : String := "<?php\n\n$old = ['title' => 'Alt'"

def otherTail : String := "];\n\nreturn array(\n    'title' => 'Titel',\n);\n"

/-- No array is returned in brackets, yet the new lines go into the other one. -/
theorem other_array_extended :
    (postsTree (otherHead ++ otherTail)).read? postsPath = some (otherHead ++ otherTail) ∧
    ¬ ReturnsArray (otherHead ++ otherTail) ∧
    (∃ e ∈ titleEntries, e.1 ∉ definedKeys (otherHead ++ otherTail)) ∧
    update (postsTree (otherHead ++ otherTail)) postsPath titleEntries
      = (postsTree (otherHead
          ++ ",\n    'model_name' => 'Post',\n    'model_plural' => 'Posts',\n" ++ otherTail),
        .ok ⟨postsPath, ["model_name", "model_plural"]⟩) := by
  have last : SplitsLast [']', ';'] (otherHead ++ otherTail).toList otherHead.toList
      (otherTail.toList.drop 2) := (splitLast?_iff (by simp)).1 (by decide +kernel)
  refine ⟨posts_read _, ?_, by decide +kernel, ?_⟩
  · rintro ⟨before, after, start, gap, inside, last', split, _⟩
    obtain ⟨rfl, _⟩ := splitsLast_unique last last'
    have word : Mentions "return" otherHead := ⟨start, gap ++ '[' :: inside, by simp [split]⟩
    revert word
    unfold Mentions
    decide +kernel
  · have new : missing (otherHead ++ otherTail) titleEntries
        = [("model_name", "Post"), ("model_plural", "Posts")] := by decide +kernel
    rw [update_present (posts_read _), new]
    exact Or.inr ⟨by simp, _, by decide +kernel, posts_write _ _, rfl⟩

end BladeForm.Language
