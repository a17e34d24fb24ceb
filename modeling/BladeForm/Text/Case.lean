import BladeForm.Text.Case.Context
import BladeForm.Text.Case.Mapping

/-!
Upper and lower case of whole texts. One letter may become several (`ß` is `SS` in capitals),
and a capital sigma is final, `ς`, where a word ends: a letter with case before it and none
after it, looking past whatever case rules step over.
-/
namespace BladeForm.Text

def mapLetter (runs : List CaseRun) (expansions : List (Nat × List Nat)) (c : Char) : List Char :=
  match expansions.lookup c.toNat with
  | some ns => ns.map Char.ofNat
  | none =>
    match runs.find? (·.covers c.toNat) with
    | some r => [Char.ofNat (r.image c.toNat)]
    | none => [c]

def upperChar (c : Char) : List Char :=
  if c.toNat < 128 then [c.toUpper] else mapLetter upperRuns upperExpansions c

def lowerChar (c : Char) : List Char :=
  if c.toNat < 128 then [c.toLower] else mapLetter lowerRuns lowerExpansions c

def upper (cs : List Char) : List Char := cs.flatMap upperChar

def casedAhead : List Char → Bool
  | [] => false
  | c :: cs => if caseIgnorableRanges.has c then casedAhead cs else casedRanges.has c

/-- `before` holds the text already passed, nearest character first. -/
def lowerAfter (before : List Char) : List Char → List Char
  | [] => []
  | c :: cs =>
    (if c = 'Σ' then (if casedAhead before && !casedAhead cs then ['ς'] else ['σ'])
      else lowerChar c) ++ lowerAfter (c :: before) cs

def lower (cs : List Char) : List Char := lowerAfter [] cs

end BladeForm.Text
