import BladeForm.Text.Digits

/-!
Quoted texts and keys of TOML. Basic strings have escapes, literal strings have none; both
also come in a form that runs over lines. Each reader starts after the opening quotes and
returns the text and what follows the closing ones.
-/
namespace BladeForm.Toml

def isBlank (c : Char) : Bool := c = ' ' || c = '\t'

def isPlain (c : Char) : Bool := c = '\t' || 0x20 ≤ c.toNat && c.toNat ≠ 0x7f

def newline? : List Char → Option (List Char)
  | '\n' :: cs => some cs
  | '\r' :: '\n' :: cs => some cs
  | _ => none

def skipLines : List Char → List Char
  | ' ' :: cs | '\t' :: cs | '\n' :: cs | '\r' :: '\n' :: cs => skipLines cs
  | cs => cs

def numbered? (n : Nat) (cs : List Char) : Option (Char × List Char) := do
  let ds ← (cs.take n).mapM (Text.digit? 16)
  let code := Text.ofDigits 16 ds
  if ds.length = n && code.isValidChar then some (Char.ofNat code, cs.drop n) else none

def escape? : List Char → Option (Char × List Char)
  | 'b' :: cs => some ('\x08', cs)
  | 't' :: cs => some ('\t', cs)
  | 'n' :: cs => some ('\n', cs)
  | 'f' :: cs => some ('\x0c', cs)
  | 'r' :: cs => some ('\r', cs)
  | '"' :: cs => some ('"', cs)
  | '\\' :: cs => some ('\\', cs)
  | 'u' :: cs => numbered? 4 cs
  | 'U' :: cs => numbered? 8 cs
  | _ => none

def basicTail : (fuel : Nat) → List Char → Option (List Char × List Char)
  | 0, _ | _, [] => none
  | fuel + 1, c :: cs =>
    if c = '"' then some ([], cs)
    else if c = '\\' then do
      let (e, cs) ← escape? cs
      let (s, rest) ← basicTail fuel cs
      some (e :: s, rest)
    else if isPlain c then (basicTail fuel cs).map fun r => (c :: r.1, r.2)
    else none

def literalTail : List Char → Option (List Char × List Char)
  | [] => none
  | c :: cs =>
    if c = '\'' then some ([], cs)
    else if isPlain c then (literalTail cs).map fun r => (c :: r.1, r.2)
    else none

/-- A run of quotes closes a text over lines from three on; up to two more before them belong
    to the text. -/
def closing? (quote : Char) (cs : List Char) : Option (List Char × List Char) :=
  let run := min (cs.takeWhile (· = quote)).length 5
  if run < 3 then none else some (List.replicate (run - 3) quote, cs.drop run)

/-- A backslash at the end of a line: past it and the blank lines after it. -/
def continued? (cs : List Char) : Option (List Char) :=
  (newline? (cs.dropWhile isBlank)).map skipLines

def longBasicTail : (fuel : Nat) → List Char → Option (List Char × List Char)
  | 0, _ | _, [] => none
  | fuel + 1, c :: cs =>
    match closing? '"' (c :: cs) with
    | some r => some r
    | none =>
      if c = '\\' then
        match continued? cs with
        | some cs => longBasicTail fuel cs
        | none => do
          let (e, cs) ← escape? cs
          let (s, rest) ← longBasicTail fuel cs
          some (e :: s, rest)
      else
        match newline? (c :: cs) with
        | some cs => (longBasicTail fuel cs).map fun r => ('\n' :: r.1, r.2)
        | none =>
          if isPlain c then (longBasicTail fuel cs).map fun r => (c :: r.1, r.2) else none

def longLiteralTail : (fuel : Nat) → List Char → Option (List Char × List Char)
  | 0, _ | _, [] => none
  | fuel + 1, c :: cs =>
    match closing? '\'' (c :: cs) with
    | some r => some r
    | none =>
      match newline? (c :: cs) with
      | some cs => (longLiteralTail fuel cs).map fun r => ('\n' :: r.1, r.2)
      | none =>
        if isPlain c then (longLiteralTail fuel cs).map fun r => (c :: r.1, r.2) else none

def dropFirstLineEnd (cs : List Char) : List Char := (newline? cs).getD cs

def quoted? : List Char → Option (List Char × List Char)
  | '"' :: '"' :: '"' :: cs => longBasicTail (cs.length + 1) (dropFirstLineEnd cs)
  | '\'' :: '\'' :: '\'' :: cs => longLiteralTail (cs.length + 1) (dropFirstLineEnd cs)
  | '"' :: cs => basicTail (cs.length + 1) cs
  | '\'' :: cs => literalTail cs
  | _ => none

def isBareKeyChar (c : Char) : Bool :=
  'a' ≤ c && c ≤ 'z' || 'A' ≤ c && c ≤ 'Z' || '0' ≤ c && c ≤ '9' || c = '_' || c = '-'

def simpleKey? (cs : List Char) : Option (String × List Char) :=
  match cs with
  | '"' :: rest => (basicTail (rest.length + 1) rest).map fun r => (String.ofList r.1, r.2)
  | '\'' :: rest => (literalTail rest).map fun r => (String.ofList r.1, r.2)
  | cs =>
    let key := cs.takeWhile isBareKeyChar
    if key.isEmpty then none else some (String.ofList key, cs.dropWhile isBareKeyChar)

def dottedKey? : (fuel : Nat) → List Char → Option (List String × List Char)
  | 0, _ => none
  | fuel + 1, cs => do
    let (k, rest) ← simpleKey? (cs.dropWhile isBlank)
    match rest.dropWhile isBlank with
    | '.' :: rest => (dottedKey? fuel rest).map fun r => (k :: r.1, r.2)
    | rest => some ([k], rest)

end BladeForm.Toml
