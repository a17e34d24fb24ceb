import BladeForm.Diff.Script
import BladeForm.Path
import BladeForm.Text.Lines

/-!
Unified form of a script: hunks of changes with up to three unchanged lines around them. Two
changes share a hunk when at most six unchanged lines lie between them.
-/
namespace BladeForm.Diff

inductive Mark where
  | context
  | removed
  | added
deriving DecidableEq, Repr

def Mark.char : Mark → Char
  | .context => ' '
  | .removed => '-'
  | .added => '+'

abbrev Row := Mark × Line

structure Hunk where
  oldStart : Nat
  newStart : Nat
  rows : List Row
deriving DecidableEq, Repr

def contextSize : Nat := 3

def rowsOf (m : Mark) (ls : List Line) : List Row := ls.map fun l => (m, l)

def Change.rows (c : Change) : List Row := rowsOf .removed c.removed ++ rowsOf .added c.added

def Change.lead (c : Change) : List Line := c.kept.drop (c.kept.length - contextSize)

/-- Hunks of the changes that follow `old` and `new` lines of the two texts. -/
def hunksFrom (tail : List Line) : (old new : Nat) → List Change → List Hunk
  | _, _, [] => []
  | old, new, c :: cs =>
    let lead := c.lead
    let oldAt := old + c.kept.length
    let newAt := new + c.kept.length
    let rows := rowsOf .context lead ++ c.rows
    let hunk (more : List Row) : Hunk :=
      ⟨oldAt - lead.length, newAt - lead.length, rows ++ more⟩
    match hunksFrom tail (oldAt + c.removed.length) (newAt + c.added.length) cs, cs with
    | h :: hs, next :: _ =>
      if next.kept.length ≤ 2 * contextSize then
        hunk (rowsOf .context (next.kept.take (next.kept.length - contextSize)) ++ h.rows) :: hs
      else hunk (rowsOf .context (next.kept.take contextSize)) :: h :: hs
    | _, _ => [hunk (rowsOf .context (tail.take contextSize))]

def hunks (s : Script) : List Hunk := hunksFrom s.tail 0 0 s.changes

def Hunk.oldLength (h : Hunk) : Nat := (h.rows.filter (·.1 ≠ .added)).length

def Hunk.newLength (h : Hunk) : Nat := (h.rows.filter (·.1 ≠ .removed)).length

/-- Lines count from one; an empty range names the line before it. -/
def rangeText (start length : Nat) : String :=
  if length = 1 then s!"{start + 1}"
  else if length = 0 then s!"{start},0"
  else s!"{start + 1},{length}"

def isEnded (l : Line) : Bool := l.getLast? = some '\n' || l.getLast? = some '\r'

def rowText (r : Row) : List Char :=
  r.1.char :: r.2 ++ if isEnded r.2 then [] else "\n\\ No newline at end of file\n".toList

def Hunk.text (h : Hunk) : List Char :=
  s!"@@ -{rangeText h.oldStart h.oldLength} +{rangeText h.newStart h.newLength} @@\n".toList
    ++ h.rows.flatMap rowText

def LineDiff.unified (diff : LineDiff) (existing generated : String) (path : Path) : String :=
  match hunks (diff.script (Text.rawLines existing.toList) (Text.rawLines generated.toList)) with
  | [] => ""
  | hs => s!"--- {path.text} (existing)\n+++ {path.text} (generated)\n"
    ++ String.ofList (hs.flatMap Hunk.text)

end BladeForm.Diff
