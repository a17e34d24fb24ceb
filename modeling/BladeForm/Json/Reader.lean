import BladeForm.Json.Number
import BladeForm.Json.Value
import BladeForm.Text.Digits

/-!
Reading JSON text. A text that breaks off is `truncated`, any other fault is `malformed`;
values may nest 127 deep. Each step of a nested read takes one unit of fuel, and two units
per character are always enough.
-/
namespace BladeForm.Json

inductive ReadError where
  | truncated
  | malformed
deriving DecidableEq, Repr

def skipBlanks (cs : List Char) : List Char :=
  cs.dropWhile fun c => c = ' ' || c = '\t' || c = '\n' || c = '\r'

def takeDigits : List Char → List Nat × List Char
  | [] => ([], [])
  | c :: cs =>
    match Text.digit? 10 c with
    | some d => let (ds, rest) := takeDigits cs; (d :: ds, rest)
    | none => ([], c :: cs)

def someDigits (cs : List Char) : Except ReadError (List Nat × List Char) :=
  match takeDigits cs with
  | ([], []) => .error .truncated
  | ([], _ :: _) => .error .malformed
  | r => .ok r

def wholePart (cs : List Char) : Except ReadError (List Nat × List Char) := do
  match ← someDigits cs with
  | (0 :: _ :: _, _) => .error .malformed
  | r => .ok r

def fractionPart : List Char → Except ReadError (Option (List Nat) × List Char)
  | '.' :: cs => do let (ds, rest) ← someDigits cs; .ok (some ds, rest)
  | cs => .ok (none, cs)

def exponentDigits (negative : Bool) (cs : List Char) :
    Except ReadError (Option Int × List Char) := do
  let (ds, rest) ← someDigits cs
  let n : Int := Text.ofDigits 10 ds
  .ok (some (if negative then -n else n), rest)

def exponentPart : List Char → Except ReadError (Option Int × List Char)
  | c :: cs =>
    if c = 'e' || c = 'E' then
      match cs with
      | '+' :: more => exponentDigits false more
      | '-' :: more => exponentDigits true more
      | _ => exponentDigits false cs
    else .ok (none, c :: cs)
  | [] => .ok (none, [])

def number (negative : Bool) (cs : List Char) : Except ReadError (Value × List Char) := do
  let (whole, cs) ← wholePart cs
  let (fraction, cs) ← fractionPart cs
  let (exponent, cs) ← exponentPart cs
  let l : Literal := ⟨negative, whole, fraction.getD [], exponent.getD 0,
    fraction.isNone && exponent.isNone⟩
  match l.integer?, l.float? with
  | some n, _ => .ok (.integer n, cs)
  | none, some x => .ok (.real x, cs)
  | none, none => .error .malformed

def byteLength (cs : List Char) : Nat := cs.foldl (fun n c => n + c.utf8Size) 0

/-- Four hexadecimal digits. With fewer than four bytes left the text has broken off. -/
def codeUnit (cs : List Char) : Except ReadError (Nat × List Char) :=
  match (cs.take 4).mapM (Text.digit? 16) with
  | some [a, b, c, d] => .ok (Text.ofDigits 16 [a, b, c, d], cs.drop 4)
  | _ => .error (if byteLength cs < 4 then .truncated else .malformed)

def lowUnit : List Char → Except ReadError (Nat × List Char)
  | [] => .error .truncated
  | '\\' :: [] => .error .truncated
  | '\\' :: 'u' :: cs => codeUnit cs
  | _ => .error .malformed

def unicodeEscape (cs : List Char) : Except ReadError (Char × List Char) := do
  let (high, rest) ← codeUnit cs
  if 0xdc00 ≤ high && high ≤ 0xdfff then .error .malformed
  else if 0xd800 ≤ high && high ≤ 0xdbff then
    let (low, rest) ← lowUnit rest
    if 0xdc00 ≤ low && low ≤ 0xdfff then
      .ok (Char.ofNat (0x10000 + (high - 0xd800) * 0x400 + (low - 0xdc00)), rest)
    else .error .malformed
  else .ok (Char.ofNat high, rest)

def shortEscape? : Char → Option Char
  | '"' => some '"'
  | '\\' => some '\\'
  | '/' => some '/'
  | 'b' => some '\x08'
  | 'f' => some '\x0c'
  | 'n' => some '\n'
  | 'r' => some '\r'
  | 't' => some '\t'
  | _ => none

def stringTail : Nat → List Char → Except ReadError (List Char × List Char)
  | 0, _ | _, [] => .error .truncated
  | fuel + 1, c :: cs => do
    if c = '"' then .ok ([], cs)
    else if c.toNat < 0x20 then .error .malformed
    else if c = '\\' then
      match cs with
      | [] => .error .truncated
      | 'u' :: cs =>
        let (e, rest) ← unicodeEscape cs
        let (s, rest) ← stringTail fuel rest
        .ok (e :: s, rest)
      | k :: cs =>
        match shortEscape? k with
        | none => .error .malformed
        | some e => let (s, rest) ← stringTail fuel cs; .ok (e :: s, rest)
    else
      let (s, rest) ← stringTail fuel cs
      .ok (c :: s, rest)

def string (cs : List Char) : Except ReadError (String × List Char) := do
  let (s, rest) ← stringTail (cs.length + 1) cs
  .ok (String.ofList s, rest)

def keyword (v : Value) : (name cs : List Char) → Except ReadError (Value × List Char)
  | [], cs => .ok (v, cs)
  | _ :: _, [] => .error .truncated
  | n :: ns, c :: cs => if n = c then keyword v ns cs else .error .malformed

def colon (cs : List Char) : Except ReadError (Unit × List Char) :=
  match skipBlanks cs with
  | [] => .error .truncated
  | ':' :: cs => .ok ((), cs)
  | _ => .error .malformed

mutual

/-- `depth` counts the levels that may still be opened. -/
def value : (fuel depth : Nat) → List Char → Except ReadError (Value × List Char)
  | 0, _, _ => .error .malformed
  | fuel + 1, depth, cs =>
    match skipBlanks cs with
    | [] => .error .truncated
    | 'n' :: cs => keyword .null ['u', 'l', 'l'] cs
    | 't' :: cs => keyword (.bool true) ['r', 'u', 'e'] cs
    | 'f' :: cs => keyword (.bool false) ['a', 'l', 's', 'e'] cs
    | '"' :: cs => do let (s, rest) ← string cs; .ok (.string s, rest)
    | '-' :: cs => number true cs
    | '[' :: cs =>
      match depth with
      | 0 => .error .malformed
      | depth + 1 => do let (vs, rest) ← items fuel depth true cs; .ok (.array vs, rest)
    | '\x7b' :: cs =>
      match depth with
      | 0 => .error .malformed
      | depth + 1 => do let (ms, rest) ← members fuel depth true [] cs; .ok (.object ms, rest)
    | c :: cs => if c.isDigit then number false (c :: cs) else .error .malformed

def items : (fuel depth : Nat) → (first : Bool) → List Char →
    Except ReadError (List Value × List Char)
  | 0, _, _, _ => .error .malformed
  | fuel + 1, depth, first, cs =>
    match skipBlanks cs with
    | [] => .error .truncated
    | c :: rest =>
      if c = ']' then .ok ([], rest)
      else if first then do
        let (v, rest) ← value fuel depth (c :: rest)
        let (vs, rest) ← items fuel depth false rest
        .ok (v :: vs, rest)
      else if c = ',' then
        match skipBlanks rest with
        | [] => .error .truncated
        | ']' :: _ => .error .malformed
        | rest => do
          let (v, rest) ← value fuel depth rest
          let (vs, rest) ← items fuel depth false rest
          .ok (v :: vs, rest)
      else .error .malformed

/-- What follows an opening brace, or a member; `soFar` holds the members already read. -/
def members : (fuel depth : Nat) → (first : Bool) → (soFar : List (String × Value)) →
    List Char → Except ReadError (List (String × Value) × List Char)
  | 0, _, _, _, _ => .error .malformed
  | fuel + 1, depth, first, soFar, cs =>
    match skipBlanks cs with
    | [] => .error .truncated
    | '\x7d' :: rest => .ok (soFar, rest)
    | c :: rest =>
      if first || c = ',' then
        match if first then c :: rest else skipBlanks rest with
        | [] => .error .truncated
        | '"' :: rest => do
          let (key, rest) ← string rest
          let ((), rest) ← colon rest
          let (v, rest) ← value fuel depth rest
          members fuel depth false (insertMember key v soFar) rest
        | _ => .error .malformed
      else .error .malformed

end

def maxDepth : Nat := 127

def parse (text : String) : Except ReadError Value := do
  let cs := text.toList
  let (v, rest) ← value (2 * cs.length + 2) maxDepth cs
  if (skipBlanks rest).isEmpty then .ok v else .error .malformed

end BladeForm.Json
