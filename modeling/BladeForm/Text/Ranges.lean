/-!
Sets of characters, written as intervals of code points with both ends included.
-/
namespace BladeForm.Text

abbrev Ranges := List (Nat × Nat)

def Ranges.has (rs : Ranges) (c : Char) : Bool :=
  rs.any fun r => r.1 ≤ c.toNat && c.toNat ≤ r.2

end BladeForm.Text
