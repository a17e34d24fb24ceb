import BladeForm.Proofs.Language.KeyScan
import Mathlib.Data.List.Basic

/-!
The text that a merge makes. New lines stand before the last closing bracket; what precedes
the bracket loses its trailing blanks and may gain a comma, and nothing else changes. So every
key line of the old text and every new line is still a key line.
-/
namespace BladeForm.Language
open Text Php

def lineChars (e : Entry) : List Char :=
  [' ', ' ', ' ', ' '] ++ '\'' :: (Php.escape e.1.toList ++ '\'' :: ([' '] ++ '=' :: '>' ::
    (' ' :: '\'' :: (Php.escape e.2.toList ++ ['\'', ',', '\n']))))

theorem entryLine_toList (e : Entry) : (entryLine e).toList = lineChars e := by
  simp [entryLine, Php.quote, lineChars, toString]

theorem entryLines_toList (es : List Entry) : (entryLines es).toList = es.flatMap lineChars := by
  simp [entryLines, String.toList_join, List.flatMap_map, entryLine_toList]

def IdentifierKeys (es : List Entry) : Prop := ∀ e ∈ es, Name.isIdentifier e.1 = true

def separatorFor (head : List Char) : List Char :=
  if head.getLast? = some ',' || head.getLast? = some '[' then [] else [',']

def opening (before : List Char) : List Char :=
  dropEnd isBlank before ++ (separatorFor (dropEnd isBlank before) ++ ['\n'])

theorem separator_cases (head : List Char) : separatorFor head = [] ∨ separatorFor head = [','] := by
  rw [separatorFor]
  split
  · exact Or.inl rfl
  · exact Or.inr rfl

theorem append_eq {content lines : String}
    (returns : contains ['r', 'e', 't', 'u', 'r', 'n'] content.toList = true)
    {before after : List Char} (last : SplitsLast [']', ';'] content.toList before after) :
    append content lines
      = .ok (String.ofList (opening before ++ (lines.toList ++ ']' :: ';' :: after))) := by
  rw [append]
  simp only [returns, (splitLast?_iff (by simp)).2 last, opening, separatorFor]
  simp

theorem append_splits {content lines merged : String} (done : append content lines = .ok merged) :
    ∃ before after, SplitsLast [']', ';'] content.toList before after ∧
      merged.toList = opening before ++ (lines.toList ++ ']' :: ';' :: after) := by
  simp only [append] at done
  split at done
  · contradiction
  · next returns =>
    split at done
    · contradiction
    · next before after found =>
      refine ⟨before, after, (splitLast?_iff (by simp)).1 found, ?_⟩
      cases done
      simp [opening, separatorFor]

/-- The merged text around the last closing bracket. -/
structure Insertion (content lines merged head blanks separator after : List Char) : Prop where
  old : content = head ++ (blanks ++ ']' :: ';' :: after)
  last : ∀ b r, content = b ++ ']' :: ';' :: r → b.length ≤ (head ++ blanks).length
  blank : blanks.all isBlank = true
  comma : separator = [] ∨ separator = [',']
  new : merged = head ++ (separator ++ '\n' :: (lines ++ ']' :: ';' :: after))

theorem append_inserts {content lines merged : String} (done : append content lines = .ok merged) :
    ∃ head blanks after, Insertion content.toList lines.toList merged.toList head blanks
      (separatorFor head) after := by
  obtain ⟨before, after, last, new⟩ := append_splits done
  obtain ⟨blanks, split, blank⟩ := dropEnd_split isBlank before
  refine ⟨dropEnd isBlank before, blanks, after, ?_, ?_, blank, separator_cases _, ?_⟩
  · rw [← List.append_assoc, ← split]
    exact last.1
  · rw [← split]
    exact last.2
  · simp [new, opening]

theorem bracket_apart {before part rest left right : List Char} (free : ']' ∉ part)
    (same : left ++ ']' :: right = before ++ (part ++ rest)) :
    (∃ more, left = before ++ (part ++ more) ∧ rest = more ++ ']' :: right) ∨
      ∃ more, before = left ++ ']' :: more ∧ right = more ++ (part ++ rest) := by
  rcases List.append_eq_append_iff.1 same with ⟨as, outer, inner⟩ | ⟨bs, outer, inner⟩
  · cases as with
    | nil =>
      cases part with
      | nil => exact Or.inl ⟨[], by simpa using outer.symm, inner.symm⟩
      | cons p ps =>
        cases (List.cons.inj inner).1
        exact absurd List.mem_cons_self free
    | cons a as =>
      obtain ⟨rfl, tail⟩ := List.cons.inj inner
      exact Or.inr ⟨as, outer, tail⟩
  · rcases List.append_eq_append_iff.1 inner with ⟨as, within, tail⟩ | ⟨cs, within, tail⟩
    · exact Or.inl ⟨as, by rw [outer, within], tail⟩
    · cases cs with
      | nil => exact Or.inl ⟨[], by simp [outer, within], tail.symm⟩
      | cons c cs =>
        cases (List.cons.inj tail).1
        exact absurd (by simp [within]) free

theorem ends_behind {p : Char → Bool} {head ending xs more : List Char} {c : Char}
    (all : ending.all p = true) (other : p c = false)
    (same : head ++ ending = (xs ++ [c]) ++ more) : ∃ bs, head = (xs ++ [c]) ++ bs := by
  rcases List.append_eq_append_iff.1 same with ⟨as, split, within⟩ | ⟨bs, split, _⟩
  · rcases List.eq_nil_or_concat as with rfl | ⟨ds, d, rfl⟩
    · exact ⟨[], by simpa using split.symm⟩
    · rw [List.concat_eq_append, ← List.append_assoc] at split
      cases (List.append_inj' split rfl).2
      have := List.all_eq_true.1 all c (by simp [within])
      simp [other] at this
  · exact ⟨bs, split⟩

/-- A key line stays one: the bracket stands on one side of it, and the blanks that are dropped
    before the bracket come after the arrow. -/
theorem opensLine_insertion {content lines merged head blanks separator after key : List Char}
    (inserted : Insertion content lines merged head blanks separator after)
    (free : ']' ∉ key) (line : OpensLine key content) : OpensLine key merged := by
  obtain ⟨before, lead, gap, rest, split, feed, leading, between⟩ := line
  have noBracket : ∀ {xs : List Char}, xs.all isAsciiBlank = true → ']' ∉ xs := by
    intro xs all member
    have := List.all_eq_true.1 all _ member
    contradiction
  have partFree : ']' ∉ lead ++ '\'' :: (key ++ '\'' :: (gap ++ ['=', '>'])) := by
    simp [noBracket leading, noBracket between, free]
  have same : (head ++ blanks) ++ ']' :: (';' :: after)
      = before ++ ((lead ++ '\'' :: (key ++ '\'' :: (gap ++ ['=', '>']))) ++ rest) := by
    have := inserted.old.symm.trans split
    simpa using this
  rw [inserted.new]
  rcases bracket_apart partFree same with ⟨more, left, _⟩ | ⟨more, left, right⟩
  · have arrow : head ++ blanks
        = ((before ++ (lead ++ '\'' :: (key ++ '\'' :: (gap ++ ['='])))) ++ ['>']) ++ more := by
      simpa using left
    obtain ⟨bs, within⟩ := ends_behind inserted.blank (by decide) arrow
    exact ⟨before, lead, gap, bs ++ (separator ++ '\n' :: (lines ++ ']' :: ';' :: after)),
      by simp [within], feed, leading, between⟩
  · refine ⟨head ++ (separator ++ '\n' :: (lines ++ ']' :: more)), lead, gap, rest, ?_, ?_,
      leading, between⟩
    · simp [right]
    · intro _
      have last := feed (by simp [left])
      rw [left, List.getLast?_append_of_ne_nil _ (by simp)] at last
      have behind : head ++ (separator ++ '\n' :: (lines ++ ']' :: more))
          = (head ++ (separator ++ '\n' :: lines)) ++ ']' :: more := by
        simp
      rw [behind, List.getLast?_append_of_ne_nil _ (by simp)]
      exact last

theorem lines_end {before : List Char} (ends : before.getLast? = some '\n') (es : List Entry) :
    (before ++ es.flatMap lineChars).getLast? = some '\n' := by
  induction es generalizing before with
  | nil => simpa using ends
  | cons e es ih =>
    rw [List.flatMap_cons, ← List.append_assoc]
    apply ih
    simp [lineChars, List.getLast?_append, List.getLast?_cons]

theorem opensLine_entry {es : List Entry} {e : Entry} (member : e ∈ es)
    (plain : e.1.toList.all isPlain = true) {before : List Char}
    (ends : before.getLast? = some '\n') (after : List Char) :
    OpensLine e.1.toList (before ++ (es.flatMap lineChars ++ after)) := by
  obtain ⟨earlier, later, rfl⟩ := List.append_of_mem member
  refine ⟨before ++ earlier.flatMap lineChars, [' ', ' ', ' ', ' '], [' '],
    ' ' :: '\'' :: (Php.escape e.2.toList ++ ['\'', ',', '\n']) ++ later.flatMap lineChars ++ after,
    ?_, fun _ => lines_end ends earlier, by decide, by decide⟩
  simp [lineChars, escape_plain plain]

end BladeForm.Language
