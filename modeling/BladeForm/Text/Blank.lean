/-!
Blank characters. `isBlank` is the White_Space property, `isAsciiBlank` its ASCII part;
the second is what the placeholder and language-file grammars skip.
-/
namespace BladeForm.Text

def isAsciiBlank (c : Char) : Bool :=
  c = ' ' || c = '\t' || c = '\n' || c = '\x0b' || c = '\x0c' || c = '\r'

def isBlank (c : Char) : Bool :=
  isAsciiBlank c || c.toNat = 0x85 || c.toNat = 0xa0 || c.toNat = 0x1680
    || 0x2000 ≤ c.toNat && c.toNat ≤ 0x200a
    || c.toNat = 0x2028 || c.toNat = 0x2029 || c.toNat = 0x202f
    || c.toNat = 0x205f || c.toNat = 0x3000

def dropEnd (p : Char → Bool) : List Char → List Char
  | [] => []
  | c :: cs =>
    match dropEnd p cs with
    | [] => if p c then [] else [c]
    | kept => c :: kept

def strip (p : Char → Bool) (cs : List Char) : List Char := dropEnd p (cs.dropWhile p)

def trim (s : String) : String := String.ofList (strip isBlank s.toList)

end BladeForm.Text
