/-!
Numbers as JSON writes them. A significand takes digits as long as it fits 64 bits; digits
left over before the point count as powers of ten, and after the point they are lost. The
float is the significand times or divided by one power of ten, so it can differ from the
nearest one in its last bit.
-/
namespace BladeForm.Json

structure Literal where
  negative : Bool
  whole : List Nat
  fraction : List Nat
  exponent : Int
  isInteger : Bool
deriving DecidableEq, Repr

def wordLimit : Nat := Nat.pow 2 64

/-- The significand after the digits that fit, and how many were left. -/
def fitDigits (significand : Nat) : List Nat → Nat × Nat
  | [] => (significand, 0)
  | d :: ds =>
    if significand * 10 + d < wordLimit then fitDigits (significand * 10 + d) ds
    else (significand, ds.length + 1)

def powerOfTen (n : Nat) : Float := Float.ofScientific 1 false n

def scaled? (significand : Nat) (exponent : Int) : Option Float :=
  let x := Float.ofNat significand
  let n := exponent.natAbs
  if significand = 0 then some 0
  else if 0 ≤ exponent then
    if n ≤ 308 && (x * powerOfTen n).isFinite then some (x * powerOfTen n) else none
  else if n ≤ 308 then some (x / powerOfTen n)
  else if n ≤ 616 then some (x / powerOfTen 308 / powerOfTen (n - 308))
  else some 0

def Literal.float? (l : Literal) : Option Float :=
  let (whole, dropped) := fitDigits 0 l.whole
  let (all, lost) := fitDigits whole l.fraction
  let taken := l.fraction.length - lost
  (scaled? all (l.exponent + dropped - taken)).map fun x => if l.negative then -x else x

/-- The integer a literal stands for; minus zero is no integer. -/
def Literal.integer? (l : Literal) : Option Int :=
  let (n, dropped) := fitDigits 0 l.whole
  if !l.isInteger || dropped ≠ 0 then none
  else if !l.negative then some n
  else if n ≠ 0 && n ≤ Nat.pow 2 63 then some (-n)
  else none

end BladeForm.Json
