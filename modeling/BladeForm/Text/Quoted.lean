import BladeForm.Text.Cluster.Classes
import BladeForm.Text.Quoted.Unprintable

/-!
Text shown between double quotes in a message: quotes and backslashes are escaped, the usual
controls have letters, and what could not be seen (marks and unprintable characters) is
spelled by its number.
-/
namespace BladeForm.Text

/-- Marks are drawn onto the character before them. The halfwidth sound marks of Katakana
    continue a cluster too, but have a place of their own. -/
def isOverlaid (c : Char) : Bool :=
  graphemeExtendRanges.has c && c.toNat ≠ 0xff9e && c.toNat ≠ 0xff9f

def hexDigits (n : Nat) : List Char := Nat.toDigits 16 n

def quotedChar (c : Char) : List Char :=
  if c = '\x00' then ['\\', '0']
  else if c = '\t' then ['\\', 't']
  else if c = '\r' then ['\\', 'r']
  else if c = '\n' then ['\\', 'n']
  else if c = '"' then ['\\', '"']
  else if c = '\\' then ['\\', '\\']
  else if isOverlaid c || unprintableRanges.has c then
    "\\u\x7b".toList ++ hexDigits c.toNat ++ ['\x7d']
  else [c]

def quoted (s : String) : String :=
  String.ofList ('"' :: s.toList.flatMap quotedChar ++ ['"'])

end BladeForm.Text
