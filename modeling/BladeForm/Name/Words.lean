import BladeForm.Text.Case
import BladeForm.Text.Cluster

/-!
Words of a name. Underscores, hyphens and spaces separate words and are dropped; a word also
ends where letters change case or meet digits, and before the last capital of a run of
capitals that a lower-case letter follows. Words may be empty: `_id` has an empty first word.
All conditions look at whole visible characters.
-/
namespace BladeForm.Name
open Text

def isDelimiter (g : List Char) : Bool := g = ['_'] || g = ['-'] || g = [' ']

def isUpper (g : List Char) : Bool := upper g ≠ lower g && g = upper g

def isLower (g : List Char) : Bool := upper g ≠ lower g && g = lower g

def isDigits (g : List Char) : Bool := !g.isEmpty && g.all Char.isDigit

/-- A word ends after `g` when this comes next. -/
def endsWord (g : List Char) : List (List Char) → Bool
  | [] => false
  | h :: rest =>
    isLower g && (isUpper h || isDigits h)
      || isDigits g && (isUpper h || isLower h)
      || isUpper g && (isDigits h || isUpper h && (rest.head?.any isLower))

def wordTail : List (List Char) → List Char × List (List Char)
  | [] => ([], [])
  | g :: gs =>
    let (word, later) := wordTail gs
    if isDelimiter g then ([], word :: later)
    else if endsWord g gs then (g, word :: later)
    else (g ++ word, later)

def words (name : List Char) : List (List Char) :=
  if name.isEmpty then []
  else
    let (word, later) := wordTail (clusters name)
    word :: later

end BladeForm.Name
