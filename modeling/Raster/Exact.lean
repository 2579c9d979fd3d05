import Raster.Fault
/-!
# Machine numbers that are exact or a fault

Sums, differences and products of machine numbers are kept only if they are exact; where
one is not a number of its width, that is a fault. The arithmetic itself is on `Nat` and
`Int`, and the functions here say which results are kept.
-/

namespace Raster.Exact

/-- A value that an unsigned number with `size` values can be. -/
def unsigned (size value : Nat) : Except Fault Nat :=
  if value < size then .ok value else .error .overflow

theorem unsigned_of_lt {size value : Nat} (h : value < size) :
    unsigned size value = .ok value := if_pos h

/-- A difference of unsigned numbers. -/
def minus (a b : Nat) : Except Fault Nat := if b ≤ a then .ok (a - b) else .error .overflow

theorem minus_of_le {a b : Nat} (h : b ≤ a) : minus a b = .ok (a - b) := if_pos h

/-- The values of signed numbers of 32 bits. -/
def IsSigned32 (value : Int) : Prop := -2147483648 ≤ value ∧ value ≤ 2147483647

instance (value : Int) : Decidable (IsSigned32 value) := inferInstanceAs (Decidable (_ ∧ _))

/-- A value that such a number can be. -/
def signed32 (value : Int) : Except Fault Int :=
  if IsSigned32 value then .ok value else .error .overflow

theorem signed32_of_isSigned32 {value : Int} (h : IsSigned32 value) :
    signed32 value = .ok value := if_pos h

end Raster.Exact
