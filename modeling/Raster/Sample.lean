import Raster.Exact
/-!
# Samples and blending

A sample is one 8-bit component of a color, a luminosity or a coverage. Blending two
samples by an 8-bit weight works on signed integers and divides by 256:
`lerp a b w = a + ⌊(b - a) · w / 256⌋`.

Design points:

* the division by 256 is a shift and so rounds toward negative infinity. A step away from
  a larger target is therefore rounded up in size, and full weight 255 lands one short of a
  target above but exactly on a target below;
* the result never leaves the interval between the two ends (`lerp_mem`), so it is again
  a sample, `Sample.lerp`;
* the blend that runs, `lerp?`, works on signed 32-bit numbers and faults where one of them
  overflows or the weight is not one. `lerp?_eq_ok` gives the distance up to which it does
  not, and `Sample.lerp?_eq_ok` says that for samples it never does.
-/

namespace Raster

/-- `a` moved toward `b` by `weight` parts in 256, rounded toward negative infinity. -/
def lerp (a b : Int) (weight : UInt8) : Int := a + ((b - a) * weight.toNat) >>> (8 : Nat)

theorem lerp_eq_floor (a b : Int) (weight : UInt8) :
    lerp a b weight = a + (b - a) * weight.toNat / 256 := by
  simp [lerp, Int.shiftRight_eq_div_pow]

/-- Blending toward a larger or equal target stays between the two. -/
theorem lerp_mem_of_le {a b : Int} (weight : UInt8) (h : a ≤ b) :
    a ≤ lerp a b weight ∧ lerp a b weight ≤ b := by
  rw [lerp_eq_floor]
  have hw : (weight.toNat : Int) < 256 := by have := weight.toNat_lt; omega
  have low : 0 ≤ (b - a) * (weight.toNat : Int) := Int.mul_nonneg (by omega) (by omega)
  have high : (b - a) * (weight.toNat : Int) ≤ (b - a) * 256 :=
    Int.mul_le_mul_of_nonneg_left (by omega) (by omega)
  omega

/-- Blending toward a smaller or equal target stays between the two. -/
theorem lerp_mem_of_ge {a b : Int} (weight : UInt8) (h : b ≤ a) :
    b ≤ lerp a b weight ∧ lerp a b weight ≤ a := by
  rw [lerp_eq_floor]
  have hw : (weight.toNat : Int) < 256 := by have := weight.toNat_lt; omega
  have low : 0 ≤ (a - b) * (weight.toNat : Int) := Int.mul_nonneg (by omega) (by omega)
  have high : (a - b) * (weight.toNat : Int) ≤ (a - b) * 256 :=
    Int.mul_le_mul_of_nonneg_left (by omega) (by omega)
  have flip : (b - a) * (weight.toNat : Int) = -((a - b) * (weight.toNat : Int)) := by
    rw [← Int.neg_mul]
    congr 1
    omega
  omega

/-- A blend lies between its two ends, in whichever order they come. -/
theorem lerp_mem (a b : Int) (weight : UInt8) :
    min a b ≤ lerp a b weight ∧ lerp a b weight ≤ max a b := by
  rcases Int.le_total a b with h | h
  · have := lerp_mem_of_le weight h
    omega
  · have := lerp_mem_of_ge weight h
    omega

/-- The blend on signed 32-bit numbers, each step of which may overflow. -/
def lerp? (a b weight : Int) : Except Fault Int :=
  if 0 ≤ weight ∧ weight ≤ 255 then do
    let distance ← Exact.signed32 (b - a)
    let scaled ← Exact.signed32 (distance * weight)
    Exact.signed32 (a + scaled >>> (8 : Nat))
  else .error (.weightOutside weight)

/-- No step of a blend overflows while the ends are at most 8421504 apart. -/
theorem lerp?_eq_ok {a b : Int} (weight : UInt8) (ha : Exact.IsSigned32 a)
    (hb : Exact.IsSigned32 b) (near : -8421504 ≤ b - a ∧ b - a ≤ 8421504) :
    lerp? a b weight.toNat = .ok (lerp a b weight) := by
  obtain ⟨lowA, highA⟩ := ha
  obtain ⟨lowB, highB⟩ := hb
  have hw : (weight.toNat : Int) ≤ 255 := by have := weight.toNat_lt; omega
  have low : -8421504 * 255 ≤ (b - a) * (weight.toNat : Int) := by
    have := Int.mul_le_mul_of_nonneg_right near.1 (Int.natCast_nonneg weight.toNat)
    omega
  have high : (b - a) * (weight.toNat : Int) ≤ 8421504 * 255 := by
    have := Int.mul_le_mul_of_nonneg_right near.2 (Int.natCast_nonneg weight.toNat)
    omega
  obtain ⟨notBelow, notAbove⟩ := lerp_mem a b weight
  have distance : Exact.signed32 (b - a) = .ok (b - a) :=
    Exact.signed32_of_isSigned32 ⟨by omega, by omega⟩
  have scaled : Exact.signed32 ((b - a) * weight.toNat) = .ok ((b - a) * weight.toNat) :=
    Exact.signed32_of_isSigned32 ⟨by omega, by omega⟩
  have result : Exact.signed32 (lerp a b weight) = .ok (lerp a b weight) :=
    Exact.signed32_of_isSigned32 ⟨by omega, by omega⟩
  rw [lerp?, if_pos ⟨Int.natCast_nonneg _, hw⟩, distance]
  simp only [bind, Except.bind, scaled]
  exact result

namespace Sample

def toInt (x : UInt8) : Int := x.toNat

theorem toInt_mem (x : UInt8) : 0 ≤ toInt x ∧ toInt x ≤ 255 := by
  have := x.toNat_lt
  simp only [toInt]
  omega

/-- The sample of this value. Only `0 … 255` are values of samples. -/
def ofInt? (value : Int) : Except Fault UInt8 :=
  if 0 ≤ value ∧ value ≤ 255 then .ok (UInt8.ofNat value.toNat)
  else .error (.sampleOutside value)

/-- Samples blended by a weight. -/
def lerp (a b weight : UInt8) : UInt8 :=
  UInt8.ofNat (Raster.lerp (toInt a) (toInt b) weight).toNat

/-- A blend of samples is a sample, so making it one cannot fault. -/
theorem ofInt?_lerp (a b weight : UInt8) :
    ofInt? (Raster.lerp (toInt a) (toInt b) weight) = .ok (lerp a b weight) := by
  have between := lerp_mem (toInt a) (toInt b) weight
  have ha := toInt_mem a
  have hb := toInt_mem b
  rw [ofInt?, if_pos (by omega), lerp]

/-- Samples blended by a weight, with the checks of the integers in between. -/
def lerp? (a b weight : UInt8) : Except Fault UInt8 := do
  ofInt? (← Raster.lerp? (toInt a) (toInt b) (toInt weight))

/-- Blending samples meets no fault. -/
theorem lerp?_eq_ok (a b weight : UInt8) : lerp? a b weight = .ok (lerp a b weight) := by
  have ha := toInt_mem a
  have hb := toInt_mem b
  have value : Raster.lerp? (toInt a) (toInt b) (toInt weight) =
      .ok (Raster.lerp (toInt a) (toInt b) weight) :=
    Raster.lerp?_eq_ok weight ⟨by omega, by omega⟩ ⟨by omega, by omega⟩ (by omega)
  rw [lerp?, value]
  exact ofInt?_lerp a b weight

/-- As integers, blending samples is blending their values. -/
theorem toInt_lerp (a b weight : UInt8) :
    toInt (lerp a b weight) = Raster.lerp (toInt a) (toInt b) weight := by
  have between := lerp_mem (toInt a) (toInt b) weight
  have ha := toInt_mem a
  have hb := toInt_mem b
  simp only [lerp, toInt] at between ha hb ⊢
  rw [UInt8.toNat_ofNat', Nat.mod_eq_of_lt (by omega)]
  omega

end Sample

end Raster
