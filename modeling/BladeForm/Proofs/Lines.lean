import BladeForm.Text.Lines
import Mathlib.Data.List.Basic

/-!
Lines with their endings. Put together they are the text; each of them ends in its only line
break, but for a last one without any, and texts made of such lines are cut into them again.
-/
namespace BladeForm.Text

def isBreak (c : Char) : Bool := c = '\n' || c = '\r'

theorem isBreak_iff (c : Char) : isBreak c = true ↔ c = '\n' ∨ c = '\r' := by
  simp [isBreak]

def breaks : List (List Char) := [['\n'], ['\r', '\n'], ['\r']]

/-- A line with its ending, and no line break before that. -/
def IsEnded (line : List Char) : Prop :=
  ∃ body ending, line = body ++ ending ∧ (∀ c ∈ body, isBreak c = false) ∧ ending ∈ breaks

theorem ended_cons {c : Char} (other : isBreak c = false) {line : List Char}
    (ended : IsEnded line) : IsEnded (c :: line) := by
  obtain ⟨body, ending, rfl, free, member⟩ := ended
  exact ⟨c :: body, ending, rfl, List.forall_mem_cons.2 ⟨other, free⟩, member⟩

theorem rawLines_other {c : Char} (other : isBreak c = false) {cs line : List Char}
    {more : List (List Char)} (split : rawLines cs = line :: more) :
    rawLines (c :: cs) = (c :: line) :: more := by
  rw [← Bool.not_eq_true, isBreak_iff, not_or] at other
  simp [rawLines, split, other]

theorem flatten_rawLines (cs : List Char) : (rawLines cs).flatten = cs := by
  induction cs with
  | nil => rfl
  | cons c cs ih =>
    rw [rawLines]
    split
    · rw [List.flatten_cons, ih, List.singleton_append]
    · cases split : rawLines cs with
      | nil =>
        rw [split] at ih
        rw [← ih]
        rfl
      | cons line more =>
        rw [split] at ih
        rw [← ih]
        rfl

theorem rawLines_inj {xs ys : List Char} (same : rawLines xs = rawLines ys) : xs = ys := by
  rw [← flatten_rawLines xs, same, flatten_rawLines]

theorem rawLines_ended {line rest : List Char} (ended : IsEnded line)
    (apart : rest.head? ≠ some '\n') : rawLines (line ++ rest) = line :: rawLines rest := by
  obtain ⟨body, ending, rfl, free, member⟩ := ended
  induction body with
  | nil =>
    simp only [breaks, List.mem_cons, List.not_mem_nil, or_false] at member
    rcases member with rfl | rfl | rfl
    · simp [rawLines]
    · simp [rawLines]
    · simp [rawLines, apart]
  | cons c body ih =>
    rw [List.forall_mem_cons] at free
    exact rawLines_other free.1 (ih free.2)

theorem rawLines_flatten {lines : List (List Char)}
    (ended : ∀ line ∈ lines, IsEnded line ∧ line.head? ≠ some '\n') :
    rawLines lines.flatten = lines := by
  induction lines with
  | nil => rfl
  | cons line lines ih =>
    obtain ⟨first, later⟩ := List.forall_mem_cons.1 ended
    have apart : lines.flatten.head? ≠ some '\n' := by
      cases lines with
      | nil => simp
      | cons next lines =>
        obtain ⟨⟨body, ending, same, _, member⟩, begins⟩ := later next List.mem_cons_self
        have some : next ≠ [] := by
          rintro rfl
          rw [List.nil_eq, List.append_eq_nil_iff] at same
          rw [same.2] at member
          exact absurd member (by decide)
        rwa [List.flatten_cons, List.head?_append_of_ne_nil _ some]
    rw [List.flatten_cons, rawLines_ended first.1 apart, ih later]

theorem mem_rawLines {cs line : List Char} (member : line ∈ rawLines cs) :
    IsEnded line ∨ line ≠ [] ∧ ∀ c ∈ line, isBreak c = false := by
  have alone : ∀ ending ∈ breaks, IsEnded ending := fun ending there =>
    ⟨[], ending, rfl, by simp, there⟩
  induction cs generalizing line with
  | nil => cases member
  | cons c cs ih =>
    cases other : isBreak c with
    | true =>
      rcases (isBreak_iff c).1 other with rfl | rfl
      · have split : rawLines ('\n' :: cs) = ['\n'] :: rawLines cs := by simp [rawLines]
        rw [split, List.mem_cons] at member
        rcases member with rfl | later
        · exact Or.inl (alone _ (by decide))
        · exact ih later
      · by_cases feeds : cs.head? = some '\n'
        · obtain ⟨rest, rfl⟩ := List.head?_eq_some_iff.1 feeds
          have behind : rawLines ('\n' :: rest) = ['\n'] :: rawLines rest := by simp [rawLines]
          have split : rawLines ('\r' :: '\n' :: rest) = ['\r', '\n'] :: rawLines rest := by
            simp [rawLines]
          rw [split, List.mem_cons] at member
          rcases member with rfl | later
          · exact Or.inl (alone _ (by decide))
          · exact ih (by rw [behind]; exact List.mem_cons_of_mem _ later)
        · have split : rawLines ('\r' :: cs) = ['\r'] :: rawLines cs := by simp [rawLines, feeds]
          rw [split, List.mem_cons] at member
          rcases member with rfl | later
          · exact Or.inl (alone _ (by decide))
          · exact ih later
    | false =>
      cases split : rawLines cs with
      | nil =>
        have empty : cs = [] := rawLines_inj split
        subst empty
        rw [isBreak, Bool.or_eq_false_iff, decide_eq_false_iff_not, decide_eq_false_iff_not]
          at other
        have single : rawLines [c] = [[c]] := by simp [rawLines, other]
        rw [single, List.mem_singleton] at member
        subst member
        exact Or.inr ⟨by simp, by simp [isBreak, other]⟩
      | cons first more =>
        rw [rawLines_other other split, List.mem_cons] at member
        rcases member with rfl | later
        · rcases ih (by rw [split]; exact List.mem_cons_self) with ended | ⟨_, free⟩
          · exact Or.inl (ended_cons other ended)
          · exact Or.inr ⟨by simp, List.forall_mem_cons.2 ⟨other, free⟩⟩
        · exact ih (by rw [split]; exact List.mem_cons_of_mem _ later)

end BladeForm.Text
