/-!
Differences between two texts, line by line. Which lines are kept is left to a line diff; a
script gathers its edits into changes.
-/
namespace BladeForm.Diff

abbrev Line := List Char

/-- Unchanged lines, then the lines removed and the lines put in their place. -/
structure Change where
  kept : List Line
  removed : List Line
  added : List Line
deriving DecidableEq, Repr

structure Script where
  changes : List Change
  tail : List Line
deriving DecidableEq, Repr

inductive Edit where
  | keep (l : Line)
  | remove (l : Line)
  | add (l : Line)
deriving DecidableEq, Repr

def Script.cons (s : Script) : Edit → Script
  | .keep l =>
    match s.changes with
    | [] => ⟨[], l :: s.tail⟩
    | c :: cs => ⟨{ c with kept := l :: c.kept } :: cs, s.tail⟩
  | .remove l =>
    match s.changes with
    | ⟨[], removed, added⟩ :: cs => ⟨⟨[], l :: removed, added⟩ :: cs, s.tail⟩
    | cs => ⟨⟨[], [l], []⟩ :: cs, s.tail⟩
  | .add l =>
    match s.changes with
    | ⟨[], removed, added⟩ :: cs => ⟨⟨[], removed, l :: added⟩ :: cs, s.tail⟩
    | cs => ⟨⟨[], [], [l]⟩ :: cs, s.tail⟩

def Script.ofEdits (es : List Edit) : Script := es.foldr (fun e s => s.cons e) ⟨[], []⟩

/-- What compares the lines of two texts. -/
structure LineDiff where
  edits : (old new : List Line) → List Edit

def LineDiff.script (diff : LineDiff) (old new : List Line) : Script :=
  .ofEdits (diff.edits old new)

end BladeForm.Diff
