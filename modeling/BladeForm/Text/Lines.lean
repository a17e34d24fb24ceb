/-!
Lines of a text. `lines` reads a line without its line feed and without a carriage return
just before it; a text that ends in a line feed has no empty last line. `rawLines` keeps every
ending, and there a lone carriage return ends a line too.
-/
namespace BladeForm.Text

def joinWith (sep : List Char) : List (List Char) → List Char
  | [] => []
  | [x] => x
  | x :: y :: rest => x ++ sep ++ joinWith sep (y :: rest)

def splitAtEach (p : Char → Bool) : List Char → List (List Char)
  | [] => [[]]
  | c :: cs =>
    match splitAtEach p cs with
    | [] => [[c]]
    | piece :: pieces => if p c then [] :: piece :: pieces else (c :: piece) :: pieces

def dropReturn (line : List Char) : List Char :=
  if line.getLast? = some '\r' then line.dropLast else line

/-- The last piece was not ended by a line feed: it counts if it holds anything, as it is. -/
def endPieces : List (List Char) → List (List Char)
  | [] => []
  | [piece] => if piece.isEmpty then [] else [piece]
  | piece :: next :: rest => dropReturn piece :: endPieces (next :: rest)

def lines (cs : List Char) : List (List Char) := endPieces (splitAtEach (· = '\n') cs)

def rawLines : List Char → List (List Char)
  | [] => []
  | c :: cs =>
    let rest := rawLines cs
    if c = '\n' || c = '\r' && cs.head? ≠ some '\n' then [c] :: rest
    else
      match rest with
      | [] => [[c]]
      | line :: more => (c :: line) :: more

/-- Every line that holds anything moves right by `width`; the last line loses its ending. -/
def indent (width : Nat) (cs : List Char) : List Char :=
  joinWith ['\n'] ((lines cs).map fun line =>
    if line.isEmpty then [] else List.replicate width ' ' ++ line)

end BladeForm.Text
