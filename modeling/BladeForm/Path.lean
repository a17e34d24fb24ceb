import BladeForm.Text.Lines

/-!
File paths as they are written. A path is a start (the root, a leading dot, or neither) and
its segments between slashes. Empty segments and dots are passed over, but they stay in the
text: nothing is normalised, so a path prints as it was put together.
-/
namespace BladeForm

structure Path where
  text : String
deriving DecidableEq, Repr

namespace Path

def empty : Path := ⟨""⟩

def isAbsolute (p : Path) : Bool := p.text.toList.head? = some '/'

def isSeparator (c : Char) : Bool := c = '/'

def segments (p : Path) : List (List Char) := Text.splitAtEach isSeparator p.text.toList

/-- An absolute right side replaces the left one; otherwise one slash joins them, unless the
    left side is empty or already ends in one. -/
def join (p : Path) (q : String) : Path :=
  if q.toList.head? = some '/' then ⟨q⟩
  else if p.text.toList.getLast?.all isSeparator then ⟨p.text ++ q⟩
  else ⟨p.text ++ "/" ++ q⟩

inductive Start where
  | root
  | here
  | bare
deriving DecidableEq, Repr

def start (p : Path) : Start :=
  if p.isAbsolute then .root
  else if p.segments.head? = some ['.'] then .here
  else .bare

def body (p : Path) : List (List Char) :=
  match p.start with
  | .bare => p.segments
  | _ => p.segments.drop 1

def isSilent (s : List Char) : Bool := s = [] || s = ['.']

def isUpward (s : List Char) : Bool := s = ['.', '.']

/-- The body up to its last segment that names something. -/
def significant (p : Path) : List (List Char) :=
  (p.body.reverse.dropWhile isSilent).reverse

def ofParts (start : Start) (body : List (List Char)) : Path :=
  let tail := Text.joinWith ['/'] body
  ⟨String.ofList (match start with
    | .root => '/' :: tail
    | .here => if body.isEmpty then ['.'] else '.' :: '/' :: tail
    | .bare => tail)⟩

def parent? (p : Path) : Option Path :=
  match p.significant.reverse with
  | [] => if p.start = .here then some empty else none
  | _ :: before => some (ofParts p.start (before.dropWhile isSilent).reverse)

def fileName? (p : Path) : Option (List Char) :=
  p.significant.getLast?.filter (!isUpward ·)

/-- The stem and the extension of a file name. A leading dot starts no extension. -/
def splitExtension (name : List Char) : List Char × Option (List Char) :=
  match (name.reverse.span (· ≠ '.')) with
  | (_, []) => (name, none)
  | (_, [_]) => (name, none)
  | (ext, _ :: stem) => (stem.reverse, some ext.reverse)

def extension? (p : Path) : Option (List Char) :=
  p.fileName?.bind fun name => (splitExtension name).2

/-- Rewrites the path from the end of its file name's stem on; without a file name it stays. -/
def withExtension (p : Path) (ext : String) : Path :=
  match p.fileName? with
  | none => p
  | some name =>
    ofParts p.start (p.significant.dropLast ++ [(splitExtension name).1 ++ '.' :: ext.toList])

end Path

end BladeForm
