import BladeForm.Diff.Unified

/-!
The line diff that the program runs with. It keeps a longest common subsequence of the lines;
everything else is removed or added. Where two texts have several of them, any would do.
-/
namespace BladeForm.Diff

/-- Lengths of the longest common subsequences of `x` with what follows and every ending of
    `ys`, given those of what follows `x`. -/
def lengthRow (x : Line) : (ys : List Line) → (below : List Nat) → List Nat
  | [], _ => [0]
  | y :: ys, below =>
    let row := lengthRow x ys (below.drop 1)
    let here :=
      if x = y then (below.drop 1).headD 0 + 1 else max (below.headD 0) (row.headD 0)
    here :: row

def lengthRows (ys : List Line) : List Line → List (List Nat)
  | [] => [List.replicate (ys.length + 1) 0]
  | x :: xs =>
    let rows := lengthRows ys xs
    lengthRow x ys (rows.headD []) :: rows

/-- Follows the longest subsequence; of equals, a line is removed first. -/
def longestEdits : (xs ys : List Line) → (rows : List (List Nat)) → List Edit
  | [], ys, _ => ys.map .add
  | x :: xs, [], _ => (x :: xs).map .remove
  | x :: xs, y :: ys, rows =>
    if x = y then .keep x :: longestEdits xs ys ((rows.drop 1).map (·.drop 1))
    else if (rows.headD []).getD 1 0 ≤ ((rows.drop 1).headD []).headD 0 then
      .remove x :: longestEdits xs (y :: ys) (rows.drop 1)
    else .add y :: longestEdits (x :: xs) ys (rows.map (·.drop 1))
termination_by xs ys => xs.length + ys.length

def LineDiff.longest : LineDiff := ⟨fun old new => longestEdits old new (lengthRows new old)⟩

def unified : (existing generated : String) → (path : Path) → String := LineDiff.longest.unified

end BladeForm.Diff
