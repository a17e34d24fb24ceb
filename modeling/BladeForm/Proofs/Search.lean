import BladeForm.Text.Blank
import BladeForm.Text.Search

/-!
Occurrences of one text in another. A found occurrence is a split of the text; the first one
has nothing before it that begins the needle, the last one nothing after it.
-/
namespace BladeForm.Text

theorem after?_iff {needle text rest : List Char} :
    after? needle text = some rest ↔ text = needle ++ rest := by
  constructor
  · exact after?_eq
  · intro same
    subst text
    induction needle with
    | nil => simp [after?]
    | cons n ns ih => simpa [after?] using ih

theorem after?_none_iff {needle text : List Char} :
    after? needle text = none ↔ ¬ needle <+: text := by
  constructor
  · rintro absent ⟨rest, same⟩
    rw [after?_iff.2 same.symm] at absent
    contradiction
  · intro absent
    cases found : after? needle text with
    | none => rfl
    | some rest => exact absurd ⟨rest, (after?_eq found).symm⟩ absent

/-- No needle reaches over a character that it does not hold. -/
theorem begins_break {needle xs : List Char} {b : Char} (free : b ∉ needle) (ys : List Char) :
    needle <+: xs ++ b :: ys ↔ needle <+: xs := by
  induction needle generalizing xs with
  | nil => simp
  | cons n ns ih =>
    simp only [List.mem_cons, not_or] at free
    cases xs with
    | nil => simp [Ne.symm free.1]
    | cons x xs => rw [List.cons_append, List.cons_prefix_cons, List.cons_prefix_cons, ih free.2]

theorem splitFirst?_prefix (needle rest : List Char) :
    splitFirst? needle (needle ++ rest) = some ([], rest) := by
  have ahead : after? needle (needle ++ rest) = some rest := after?_iff.2 rfl
  cases whole : needle ++ rest with
  | nil =>
    rw [whole] at ahead
    simp [splitFirst?, ahead]
  | cons c cs =>
    rw [whole] at ahead
    simp [splitFirst?, ahead]

theorem splitFirst?_cons {needle cs : List Char} {c : Char} (absent : ¬ needle <+: c :: cs) :
    splitFirst? needle (c :: cs) = (splitFirst? needle cs).map fun r => (c :: r.1, r.2) := by
  simp [splitFirst?, after?_none_iff.2 absent]

theorem contains_occurrence (needle before rest : List Char) :
    contains needle (before ++ (needle ++ rest)) = true := by
  induction before with
  | nil => simp [contains, splitFirst?_prefix]
  | cons c cs ih =>
    rw [contains] at ih
    rw [contains, List.cons_append, splitFirst?]
    split
    · rfl
    · simpa using ih

/-- A split at an occurrence such that no occurrence begins later. -/
def SplitsLast (needle text before rest : List Char) : Prop :=
  text = before ++ (needle ++ rest) ∧
    ∀ b r, text = b ++ (needle ++ r) → b.length ≤ before.length

theorem splitsLast_unique {needle text b₁ r₁ b₂ r₂ : List Char}
    (first : SplitsLast needle text b₁ r₁) (second : SplitsLast needle text b₂ r₂) :
    b₁ = b₂ ∧ r₁ = r₂ := by
  have le := second.2 b₁ r₁ first.1
  have ge := first.2 b₂ r₂ second.1
  have same := first.1.symm.trans second.1
  obtain ⟨before, after⟩ := List.append_inj same (by omega)
  exact ⟨before, List.append_cancel_left after⟩

theorem splitsLast_cons {needle cs before rest : List Char} (c : Char)
    (last : SplitsLast needle cs before rest) : SplitsLast needle (c :: cs) (c :: before) rest := by
  refine ⟨by simp [last.1], ?_⟩
  intro b r same
  cases b with
  | nil => simp
  | cons x xs =>
    have := last.2 xs r (List.cons.inj same).2
    simpa using this

theorem splitLast?_none {needle text : List Char} (absent : splitLast? needle text = none) :
    ∀ b r, text ≠ b ++ (needle ++ r) := by
  induction text with
  | nil =>
    intro b r same
    simp only [splitLast?, Option.map_eq_none_iff, after?_none_iff] at absent
    obtain ⟨rfl, rest⟩ := List.append_eq_nil_iff.1 same.symm
    exact absent (by simp [(List.append_eq_nil_iff.1 rest).1])
  | cons c cs ih =>
    intro b r same
    simp only [splitLast?] at absent
    split at absent
    · contradiction
    · next later =>
      cases b with
      | nil =>
        rw [Option.map_eq_none_iff, after?_none_iff] at absent
        exact absent ⟨r, by simpa using same.symm⟩
      | cons x xs => exact ih later xs r (List.cons.inj same).2

theorem splitLast?_splits {needle text before rest : List Char} (ne : needle ≠ [])
    (found : splitLast? needle text = some (before, rest)) : SplitsLast needle text before rest := by
  induction text generalizing before with
  | nil =>
    obtain ⟨r, ahead, _⟩ := Option.map_eq_some_iff.1 found
    simp [after?_iff, ne] at ahead
  | cons c cs ih =>
    simp only [splitLast?] at found
    split at found
    · next r later =>
      cases found
      exact splitsLast_cons c (ih later)
    · next absent =>
      obtain ⟨r, ahead, same⟩ := Option.map_eq_some_iff.1 found
      cases same
      refine ⟨show c :: cs = needle ++ rest from after?_eq ahead, ?_⟩
      intro b r same
      cases b with
      | nil => simp
      | cons x xs => exact absurd (List.cons.inj same).2 (splitLast?_none absent xs r)

theorem splitLast?_iff {needle text before rest : List Char} (ne : needle ≠ []) :
    splitLast? needle text = some (before, rest) ↔ SplitsLast needle text before rest := by
  constructor
  · exact splitLast?_splits ne
  · intro last
    cases found : splitLast? needle text with
    | none => exact absurd last.1 (splitLast?_none found before rest)
    | some r =>
      obtain ⟨rfl, rfl⟩ := splitsLast_unique (splitLast?_splits ne found) last
      rfl

theorem dropWhile_blanks {blanks : List Char} (all : blanks.all isAsciiBlank = true)
    {c : Char} (stop : isAsciiBlank c = false) (rest : List Char) :
    (blanks ++ c :: rest).dropWhile isAsciiBlank = c :: rest := by
  rw [List.dropWhile_append_of_pos (by simpa using all), List.dropWhile_cons_of_neg (by simp [stop])]

theorem blanks_split (text : List Char) :
    ∃ blanks, blanks.all isAsciiBlank = true ∧ text = blanks ++ text.dropWhile isAsciiBlank :=
  ⟨text.takeWhile isAsciiBlank, by simp [List.all_takeWhile], by simp⟩

theorem dropEnd_split (p : Char → Bool) (cs : List Char) :
    ∃ dropped, cs = dropEnd p cs ++ dropped ∧ dropped.all p = true := by
  induction cs with
  | nil => exact ⟨[], rfl, rfl⟩
  | cons c cs ih =>
    obtain ⟨dropped, split, all⟩ := ih
    simp only [dropEnd]
    split
    · next none =>
      rw [none, List.nil_append] at split
      subst split
      by_cases matching : p c = true
      · exact ⟨c :: cs, by simp [matching], by simp [matching, all]⟩
      · exact ⟨cs, by simp [matching], all⟩
    · exact ⟨dropped, by rw [List.cons_append, ← split], all⟩

theorem dropEnd_all {p : Char → Bool} {cs : List Char} (all : cs.all p = true) :
    dropEnd p cs = [] := by
  induction cs with
  | nil => rfl
  | cons c cs ih =>
    simp only [List.all_cons, Bool.and_eq_true] at all
    simp [dropEnd, ih all.2, all.1]

theorem dropEnd_append {p : Char → Bool} {dropped : List Char} (all : dropped.all p = true)
    {c : Char} (kept : p c = false) (cs : List Char) :
    dropEnd p (cs ++ c :: dropped) = cs ++ [c] := by
  induction cs with
  | nil => simp [dropEnd, dropEnd_all all, kept]
  | cons x xs ih =>
    rw [List.cons_append, dropEnd, ih]
    split
    · next empty => simp at empty
    · rfl

end BladeForm.Text
