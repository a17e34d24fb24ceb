import BladeForm.Field.Basic
import BladeForm.Php.Quote
import BladeForm.Text.Blank
import BladeForm.Text.Search

/-!
The text of a language file: a returned array of keys and labels, one pair a line. Keys are
found where a line begins with one; new pairs go before the last closing bracket, so whatever
else the file holds stays.
-/
namespace BladeForm.Language

abbrev Entry := String × String

def entriesFor (fields : List Field) (model : String) : List Entry :=
  ("model_name", Name.title model) :: ("model_plural", Name.pluralTitle model)
    :: fields.map fun f => (f.name, f.label)

def entryLine (e : Entry) : String := s!"    {Php.quote e.1} => {Php.quote e.2},\n"

def entryLines (es : List Entry) : String := String.join (es.map entryLine)

def render (es : List Entry) : String := "<?php\n\nreturn [\n" ++ entryLines es ++ "];\n"

/-- The quoted text up to its closing quote, escapes kept, and what follows the quote. No
    escape reaches over a line feed. -/
def quotedBody? : List Char → Option (List Char × List Char)
  | [] => none
  | ['\\'] => none
  | '\\' :: c :: rest =>
    if c = '\n' then none
    else (quotedBody? rest).map fun r => ('\\' :: c :: r.1, r.2)
  | c :: rest =>
    if c = '\'' then some ([], rest) else (quotedBody? rest).map fun r => (c :: r.1, r.2)

/-- Blanks, a quoted key and its arrow: the key as it is spelled, and what follows the arrow. -/
def keyAhead? (text : List Char) : Option (List Char × List Char) := do
  let body ← Text.after? ['\''] (text.dropWhile Text.isAsciiBlank)
  let (key, rest) ← quotedBody? body
  let rest ← Text.after? ['=', '>'] (rest.dropWhile Text.isAsciiBlank)
  some (key, rest)

/-- Keys as spelled; `skip` counts characters of the last match, `opens` tells whether a line
    begins here. -/
def keysFrom : (skip : Nat) → (opens : Bool) → List Char → List (List Char)
  | _, _, [] => []
  | skip + 1, _, c :: cs => keysFrom skip (c = '\n') cs
  | 0, opens, c :: cs =>
    match if opens then keyAhead? (c :: cs) else none with
    | some (key, rest) => key :: keysFrom (cs.length - rest.length) (c = '\n') cs
    | none => keysFrom 0 (c = '\n') cs

def definedKeys (content : String) : List String :=
  (keysFrom 0 true content.toList).map fun key => String.ofList (Php.unescape key)

inductive MergeError where
  | noReturn
  | noClosing
deriving DecidableEq, Repr

/-- Puts `lines` before the last closing bracket, after a comma if one is missing. -/
def append (content lines : String) : Except MergeError String :=
  let cs := content.toList
  if !Text.contains ['r', 'e', 't', 'u', 'r', 'n'] cs then .error .noReturn
  else
    match Text.splitLast? [']', ';'] cs with
    | none => .error .noClosing
    | some (before, after) =>
      let head := Text.dropEnd Text.isBlank before
      let separator :=
        if head.getLast? = some ',' || head.getLast? = some '[' then [] else [',']
      .ok (String.ofList (head ++ separator ++ '\n' :: lines.toList ++ ']' :: ';' :: after))

end BladeForm.Language
