import BladeForm.Diff.Longest
import Mathlib.Data.List.Basic

/-!
The two texts of a script. They can be read off any edits, and gathering edits into changes
loses no line of either. Where a line diff is valid, exactly the texts that differ are changed.
-/
namespace BladeForm.Diff

def Edit.old : Edit → List Line
  | .keep l | .remove l => [l]
  | .add _ => []

def Edit.new : Edit → List Line
  | .keep l | .add l => [l]
  | .remove _ => []

/-- Edits of the first text that make the second one: every line of either, in order. -/
structure Leads (es : List Edit) (old new : List Line) : Prop where
  old : es.flatMap Edit.old = old
  new : es.flatMap Edit.new = new

def Change.old (c : Change) : List Line := c.kept ++ c.removed

def Change.new (c : Change) : List Line := c.kept ++ c.added

def Script.old (s : Script) : List Line := s.changes.flatMap Change.old ++ s.tail

def Script.new (s : Script) : List Line := s.changes.flatMap Change.new ++ s.tail

theorem cons_sides (s : Script) (e : Edit) :
    (s.cons e).old = e.old ++ s.old ∧ (s.cons e).new = e.new ++ s.new := by
  obtain ⟨changes, tail⟩ := s
  cases changes with
  | nil => cases e <;> exact ⟨rfl, rfl⟩
  | cons c cs =>
    obtain ⟨kept, removed, added⟩ := c
    cases kept with
    | nil => cases e <;> exact ⟨rfl, rfl⟩
    | cons k ks => cases e <;> exact ⟨rfl, rfl⟩

theorem ofEdits_sides (es : List Edit) :
    (Script.ofEdits es).old = es.flatMap Edit.old ∧
      (Script.ofEdits es).new = es.flatMap Edit.new := by
  induction es with
  | nil => exact ⟨rfl, rfl⟩
  | cons e es ih =>
    have step := cons_sides (.ofEdits es) e
    rw [ih.1, ih.2] at step
    exact step

/-- Edits change something unless they keep every line. -/
theorem ofEdits_unchanged_iff (es : List Edit) :
    (Script.ofEdits es).changes = [] ↔ ∀ e ∈ es, ∃ l, e = .keep l := by
  induction es with
  | nil => exact ⟨fun _ => by simp, fun _ => rfl⟩
  | cons e es ih =>
    rw [List.forall_mem_cons, ← ih]
    change ((Script.ofEdits es).cons e).changes = [] ↔ _
    cases e with
    | keep l => cases same : (Script.ofEdits es).changes <;> simp [Script.cons, same]
    | remove l => simp only [Script.cons]; split <;> simp
    | add l => simp only [Script.cons]; split <;> simp

theorem unchanged_sides {s : Script} (none : s.changes = []) : s.old = s.new := by
  rw [Script.old, Script.new, none]
  rfl

/-- What is relied on of a line diff: its edits lead from the one text to the other, and a text
    that is compared with itself is kept. -/
structure LineDiff.IsValid (diff : LineDiff) : Prop where
  leads : ∀ old new, Leads (diff.edits old new) old new
  keeps : ∀ ls, ∀ e ∈ diff.edits ls ls, ∃ l, e = .keep l

theorem script_unchanged_iff {diff : LineDiff} (valid : diff.IsValid) (old new : List Line) :
    (diff.script old new).changes = [] ↔ old = new := by
  constructor
  · intro none
    have sides := unchanged_sides none
    have leads := valid.leads old new
    rwa [LineDiff.script, (ofEdits_sides _).1, (ofEdits_sides _).2, leads.old, leads.new] at sides
  · rintro rfl
    exact (ofEdits_unchanged_iff _).2 (valid.keeps old)

theorem longestEdits_lead (xs ys : List Line) (rows : List (List Nat)) :
    Leads (longestEdits xs ys rows) xs ys := by
  induction xs generalizing ys rows with
  | nil =>
    rw [longestEdits]
    exact ⟨by simp [List.flatMap_map, Edit.old], by simp [List.flatMap_map, Edit.new]⟩
  | cons x xs ihx =>
    induction ys generalizing rows with
    | nil =>
      rw [longestEdits]
      exact ⟨by simp [List.flatMap_map, Edit.old], by simp [List.flatMap_map, Edit.new]⟩
    | cons y ys ihy =>
      rw [longestEdits]
      split
      · next same =>
        subst y
        have leads := ihx ys ((rows.drop 1).map (·.drop 1))
        exact ⟨congrArg (x :: ·) leads.old, congrArg (x :: ·) leads.new⟩
      · split
        · have leads := ihx (y :: ys) (rows.drop 1)
          exact ⟨congrArg (x :: ·) leads.old, leads.new⟩
        · have leads := ihy (rows.map (·.drop 1))
          exact ⟨leads.old, congrArg (y :: ·) leads.new⟩

theorem longestEdits_same (xs : List Line) (rows : List (List Nat)) :
    longestEdits xs xs rows = xs.map .keep := by
  induction xs generalizing rows with
  | nil => rw [longestEdits]; rfl
  | cons x xs ih => rw [longestEdits, if_pos rfl, ih, List.map_cons]

theorem longest_valid : LineDiff.longest.IsValid := by
  constructor
  · intro old new
    exact longestEdits_lead old new (lengthRows new old)
  · intro ls
    simp [LineDiff.longest, longestEdits_same]

end BladeForm.Diff
