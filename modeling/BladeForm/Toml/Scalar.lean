import BladeForm.Toml.Quoted

/-!
Numbers, truth values and dates of TOML. Only their form is checked, and that integers fit 64
bits and dates exist; each reader returns what follows.
-/
namespace BladeForm.Toml
open Text (digit? ofDigits)

def digitRun (base : Nat) : List Char → List Nat × List Char
  | '_' :: c :: cs =>
    match digit? base c with
    | some d => let r := digitRun base cs; (d :: r.1, r.2)
    | none => ([], '_' :: c :: cs)
  | c :: cs =>
    match digit? base c with
    | some d => let r := digitRun base cs; (d :: r.1, r.2)
    | none => ([], c :: cs)
  | [] => ([], [])

def digits? (base : Nat) (cs : List Char) : Option (List Nat × List Char) :=
  if (cs.head?.bind (digit? base)).isSome then some (digitRun base cs) else none

def splitSign (cs : List Char) : Bool × List Char :=
  match cs with
  | '+' :: rest => (false, rest)
  | '-' :: rest => (true, rest)
  | _ => (false, cs)

def decimal? (cs : List Char) : Option (List Nat × List Char) :=
  match cs with
  | '0' :: rest => some ([0], rest)
  | cs => digits? 10 cs

def integerLimit : Nat := Nat.pow 2 63

def based? (base : Nat) (cs : List Char) : Option (List Char) := do
  let (ds, rest) ← digits? base cs
  if ofDigits base ds < integerLimit then some rest else none

def integer? (cs : List Char) : Option (List Char) :=
  match cs with
  | '0' :: 'x' :: rest => based? 16 rest
  | '0' :: 'o' :: rest => based? 8 rest
  | '0' :: 'b' :: rest => based? 2 rest
  | cs => do
    let (negative, cs) := splitSign cs
    let (ds, rest) ← decimal? cs
    let n := ofDigits 10 ds
    if n < integerLimit || negative && n = integerLimit then some rest else none

def exponent? (cs : List Char) : Option (Int × List Char) :=
  match cs with
  | [] => none
  | c :: rest =>
    if c = 'e' || c = 'E' then do
      let (negative, rest) := splitSign rest
      let (ds, rest) ← digits? 10 rest
      let n : Int := ofDigits 10 ds
      some (if negative then -n else n, rest)
    else none

/-- A decimal `ds · 10 ^ power` that is too large for a float rounds to infinity. -/
def overflows (ds : List Nat) (power : Int) : Bool :=
  let n := ofDigits 10 ds
  let lead := power + (Nat.toDigits 10 n).length
  if n = 0 || lead < 309 then false
  else if lead > 310 then true
  else (Nat.pow 2 54 - 1) * Nat.pow 2 970 * Nat.pow 10 (-power).toNat ≤ n * Nat.pow 10 power.toNat

def decimalFloat? (cs : List Char) : Option (List Char) := do
  let (negative, cs) := splitSign cs
  let (whole, cs) ← decimal? cs
  let (fraction, exponent, rest) ← match cs with
    | '.' :: more => do
      let (fraction, rest) ← digits? 10 more
      match exponent? rest with
      | some (e, rest) => some (fraction, e, rest)
      | none => some (fraction, 0, rest)
    | cs => do
      let (e, rest) ← exponent? cs
      some ([], e, rest)
  if !negative && overflows (whole ++ fraction) (exponent - fraction.length) then none
  else some rest

def specialFloat? (cs : List Char) : Option (List Char) :=
  match (splitSign cs).2 with
  | 'i' :: 'n' :: 'f' :: rest => some rest
  | 'n' :: 'a' :: 'n' :: rest => some rest
  | _ => none

def fixedDigits? (n : Nat) (cs : List Char) : Option (Nat × List Char) := do
  let ds ← (cs.take n).mapM (digit? 10)
  if ds.length = n then some (ofDigits 10 ds, cs.drop n) else none

def within? (low high n : Nat) (cs : List Char) : Option (Nat × List Char) := do
  let (v, rest) ← fixedDigits? n cs
  if low ≤ v && v ≤ high then some (v, rest) else none

def expect? (c : Char) : List Char → Option (List Char)
  | [] => none
  | d :: cs => if c = d then some cs else none

def isLeapYear (y : Nat) : Bool := y % 4 = 0 && (y % 100 ≠ 0 || y % 400 = 0)

def monthLength (year month : Nat) : Nat :=
  if month = 2 then (if isLeapYear year then 29 else 28)
  else if month = 4 || month = 6 || month = 9 || month = 11 then 30
  else 31

def date? (cs : List Char) : Option (List Char) := do
  let (year, cs) ← fixedDigits? 4 cs
  let (month, cs) ← within? 1 12 2 (← expect? '-' cs)
  let (_, cs) ← within? 1 (monthLength year month) 2 (← expect? '-' cs)
  some cs

def secondFraction? (cs : List Char) : Option (List Char) :=
  match cs with
  | '.' :: rest => if rest.head?.any Char.isDigit then some (rest.dropWhile Char.isDigit) else none
  | cs => some cs

def time? (cs : List Char) : Option (List Char) := do
  let (_, cs) ← within? 0 23 2 cs
  let (_, cs) ← within? 0 59 2 (← expect? ':' cs)
  let (_, cs) ← within? 0 60 2 (← expect? ':' cs)
  secondFraction? cs

def zone? (cs : List Char) : Option (List Char) :=
  match cs with
  | 'Z' :: rest | 'z' :: rest => some rest
  | '+' :: rest | '-' :: rest => do
    let (_, rest) ← within? 0 23 2 rest
    let (_, rest) ← within? 0 59 2 (← expect? ':' rest)
    some rest
  | cs => some cs

/-- A date, a time of day, or both with or without a zone. A blank after a date that no time
    follows is not part of it. -/
def dateTime? (cs : List Char) : Option (List Char) :=
  match date? cs with
  | none => time? cs
  | some [] => some []
  | some (c :: rest) =>
    if c = 'T' || c = 't' then time? rest >>= zone?
    else if c = ' ' && (fixedDigits? 2 rest).any (fun r => (expect? ':' r.2).isSome) then
      time? rest >>= zone?
    else some (c :: rest)

end BladeForm.Toml
