import Mathlib.Algebra.Ring.Nat
import Mathlib.Data.List.Basic

/-!
# .NET text predicates

What the bridge's argument checks use of `System.Char` and `System.String`. Surrogates are in neither
character class, so reading a string by scalar values instead of UTF-16 units changes nothing there.
-/

namespace CadHarness.Lib.DotNet

/-- `char.IsControl`. -/
def isControl (c : Char) : Bool :=
  c.toNat ≤ 0x1F || (0x7F ≤ c.toNat && c.toNat ≤ 0x9F)

/-- `char.IsWhiteSpace`. -/
def isWhiteSpace (c : Char) : Bool :=
  (0x09 ≤ c.toNat && c.toNat ≤ 0x0D) || c.toNat = 0x20 || c.toNat = 0x85 || c.toNat = 0xA0 ||
  c.toNat = 0x1680 || (0x2000 ≤ c.toNat && c.toNat ≤ 0x200A) || c.toNat = 0x2028 ||
  c.toNat = 0x2029 || c.toNat = 0x202F || c.toNat = 0x205F || c.toNat = 0x3000

/-- `string.IsNullOrWhiteSpace`, of a string that is not null. -/
def isNullOrWhiteSpace (s : String) : Bool :=
  s.toList.all isWhiteSpace

/-- `string.Length`, the number of UTF-16 units. -/
def length (s : String) : Nat :=
  (s.toList.map (fun c => if c.toNat < 0x10000 then 1 else 2)).sum

end CadHarness.Lib.DotNet
