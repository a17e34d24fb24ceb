/-!
Decimal text of binary floating-point numbers. A number is `mantissa · 2 ^ exponent`; the
decimals that read back as it fill an interval around it, ends included when the mantissa is
even. Of these the shortest is written, and of several shortest ones the nearest; halfway between
two, the one whose last digit is even.
-/
namespace BladeForm.Decimal

/-- Interval of the decimals that read back as one positive number: its ends and the number
    itself over one denominator. -/
structure Rounding where
  low : Nat
  value : Nat
  high : Nat
  denominator : Nat
  closed : Bool
deriving DecidableEq, Repr

/-- Two quarters of the spacing lie on each side, one quarter below a power of two. -/
def Rounding.ofBinary (mantissa : Nat) (exponent : Int) (narrowBelow : Bool) : Rounding :=
  let scale := Nat.pow 2 (exponent - 2).toNat
  ⟨(4 * mantissa - (if narrowBelow then 1 else 2)) * scale, 4 * mantissa * scale,
    (4 * mantissa + 2) * scale, Nat.pow 2 (2 - exponent).toNat, decide (mantissa % 2 = 0)⟩

def Rounding.ofFloat (x : Float) : Rounding :=
  let bits : Nat := x.toBits.toNat
  let fraction : Nat := bits % Nat.pow 2 52
  let biased : Nat := bits / Nat.pow 2 52 % Nat.pow 2 11
  if biased = 0 then .ofBinary fraction (-1074) false
  else .ofBinary (Nat.pow 2 52 + fraction) ((biased : Int) - 1075) (fraction = 0 && biased > 1)

def Rounding.holds (r : Rounding) (n : Nat) (power : Int) : Bool :=
  let x := n * Nat.pow 10 power.toNat * r.denominator
  let grow := Nat.pow 10 (-power).toNat
  if r.closed then r.low * grow ≤ x && x ≤ r.high * grow
  else r.low * grow < x && x < r.high * grow

def Rounding.leadingPower (r : Rounding) : Int :=
  if r.denominator ≤ r.value then (Nat.toDigits 10 (r.value / r.denominator)).length - 1
  else below 400 1
where
  below : Nat → Nat → Int
  | 0, j => -j
  | fuel + 1, j => if r.denominator ≤ r.value * Nat.pow 10 j then -j else below fuel (j + 1)

def Rounding.onGrid? (r : Rounding) (power : Int) : Option Nat :=
  let num := r.value * Nat.pow 10 (-power).toNat
  let den := r.denominator * Nat.pow 10 power.toNat
  let n := num / den
  let doubled := 2 * (num % den)
  match r.holds n power, r.holds (n + 1) power with
  | true, true => some (if doubled < den || doubled = den && n % 2 = 0 then n else n + 1)
  | true, false => some n
  | false, true => some (n + 1)
  | false, false => none

/-- The coarsest grid with a hit; seventeen digits always have one. -/
def Rounding.shortest (r : Rounding) : Nat × Int :=
  let lead := r.leadingPower
  ((List.range 17).findSome? fun (k : Nat) =>
    (r.onGrid? (lead - k)).map fun n => (n, lead - k)).getD (r.value / r.denominator, 0)

def stripZeros (ds : List Char) (power : Int) : List Char × Int :=
  let kept := (ds.reverse.dropWhile (· = '0')).reverse
  (kept, power + (ds.length - kept.length : Nat))

/-- Positional from a hundred-thousandth up to below ten quadrillion, always with a point;
    otherwise one digit before the point and a signed exponent. -/
def layout (digits : List Char) (power : Int) : List Char :=
  let lead := power + digits.length - 1
  if -5 ≤ lead && lead ≤ 15 then
    if 0 ≤ power then digits ++ List.replicate power.toNat '0' ++ ".0".toList
    else if 0 ≤ lead then
      digits.take (lead + 1).toNat ++ '.' :: digits.drop (lead + 1).toNat
    else "0.".toList ++ List.replicate (-lead - 1).toNat '0' ++ digits
  else
    let fraction := digits.drop 1
    digits.take 1 ++ (if fraction.isEmpty then [] else '.' :: fraction)
      ++ 'e' :: (if 0 ≤ lead then '+' else '-') :: Nat.toDigits 10 lead.natAbs

def text (x : Float) : String :=
  let negative := x.toBits >>> 63 = 1
  let body :=
    if x.toBits <<< 1 = 0 then "0.0".toList
    else
      let (n, power) := (Rounding.ofFloat x).shortest
      let (digits, power) := stripZeros (Nat.toDigits 10 n) power
      layout digits power
  String.ofList (if negative then '-' :: body else body)

end BladeForm.Decimal
