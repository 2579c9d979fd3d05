import Mathlib.Data.Rat.Floor
import Raster.Proofs.Table
/-!
# Blends of numbers and of colors

To blend is to divide by 256 and to round down. What is divided can be read in two ways. As the
weight's share of the distance between the ends (`lerp_eq_floor`) it shows what the weight does:
the more of it, the further from the one end to the other (`lerp_mono_weight`,
`lerp_anti_weight`). As a sum of the ends, of which the one has the weight and the other what is
left of the 256 parts (`lerp_eq_div`), it shows what the ends do: raise one, and the blend is
raised or stays (`lerp_mono`).

Rounding down is not the same in both directions. At full weight a blend comes to lie one short of
an end above (`lerp_full_of_lt`), but on an end below (`lerp_full_of_ge`).

A blend of colors is one of their channels. It never leaves the interval between two channels, and
so it is a sample again and has no more bits than they have. `blends_exact` has all of that.
-/

namespace Raster

/-! ### Numbers -/

variable {a b : Int}

/-- The share of the distance, as a fraction that is rounded down. -/
theorem lerp_eq_rat_floor (a b : Int) (weight : UInt8) :
    lerp a b weight = a + ⌊(((b - a) * weight.toNat : Int) : ℚ) / 256⌋ := by
  rw [lerp_eq_floor]
  congr 1
  exact (Rat.floor_intCast_div_natCast ((b - a) * weight.toNat) 256).symm

/-- The ends with their parts of 256, rounded down once. -/
theorem lerp_eq_div (a b : Int) (weight : UInt8) :
    lerp a b weight = ((256 - weight.toNat) * a + weight.toNat * b) / 256 :=
  calc
    lerp a b weight = a + (b - a) * weight.toNat / 256 := lerp_eq_floor a b weight
    _ = ((b - a) * weight.toNat + a * 256) / 256 := by
      rw [Int.add_mul_ediv_right _ _ (by decide), Int.add_comm]
    _ = ((256 - weight.toNat) * a + weight.toNat * b) / 256 := by
      congr 1
      ring

/-- Higher ends, a higher blend, or the same. -/
theorem lerp_mono {a' b' : Int} (ha : a ≤ a') (hb : b ≤ b') (weight : UInt8) :
    lerp a b weight ≤ lerp a' b' weight := by
  have rest : (0 : Int) ≤ 256 - weight.toNat := by
    have := weight.toNat_lt
    omega
  rw [lerp_eq_div, lerp_eq_div]
  refine Int.ediv_le_ediv (by decide) ?_
  exact Int.add_le_add (Int.mul_le_mul_of_nonneg_left ha rest)
    (Int.mul_le_mul_of_nonneg_left hb (Int.natCast_nonneg _))

/-- More weight leads further up to an end above. -/
theorem lerp_mono_weight (h : a ≤ b) {weight weight' : UInt8} (more : weight ≤ weight') :
    lerp a b weight ≤ lerp a b weight' := by
  have parts : (weight.toNat : Int) ≤ weight'.toNat := Int.ofNat_le.mpr more
  have share := Int.mul_le_mul_of_nonneg_left parts (Int.sub_nonneg.mpr h)
  rw [lerp_eq_floor, lerp_eq_floor]
  exact Int.add_le_add_left (Int.ediv_le_ediv (by decide) share) a

/-- It leads further down to an end below. -/
theorem lerp_anti_weight (h : b ≤ a) {weight weight' : UInt8} (more : weight ≤ weight') :
    lerp a b weight' ≤ lerp a b weight := by
  have parts : (weight.toNat : Int) ≤ weight'.toNat := Int.ofNat_le.mpr more
  have share := Int.mul_le_mul_of_nonpos_left (Int.sub_nonpos_of_le h) parts
  rw [lerp_eq_floor, lerp_eq_floor]
  exact Int.add_le_add_left (Int.ediv_le_ediv (by decide) share) a

/-- Where there is no distance nothing moves. -/
theorem lerp_self (a : Int) (weight : UInt8) : lerp a a weight = a := by
  have := lerp_mem a a weight
  omega

/-- Without weight nothing moves. -/
theorem lerp_zero (a b : Int) : lerp a b 0 = a := by
  have none : ((0 : UInt8).toNat : Int) = 0 := rfl
  rw [lerp_eq_floor, none]
  omega

/-- All the weight there is leads almost to an end above. -/
theorem lerp_full_of_lt (low : 1 ≤ b - a) (high : b - a ≤ 256) : lerp a b 255 = b - 1 := by
  have full : ((255 : UInt8).toNat : Int) = 255 := rfl
  rw [lerp_eq_floor, full]
  omega

/-- It leads the whole way to an end below. -/
theorem lerp_full_of_ge (low : 0 ≤ a - b) (high : a - b ≤ 255) : lerp a b 255 = b := by
  have full : ((255 : UInt8).toNat : Int) = 255 := rfl
  rw [lerp_eq_floor, full]
  omega

/-- What there is to know of blending `a` with `b`. -/
structure BlendsWith (a b : Int) : Prop where
  /-- No number on the way overflows. -/
  runs : ∀ weight : UInt8, lerp? a b weight.toNat = .ok (lerp a b weight)
  floor : ∀ weight : UInt8,
    lerp a b weight = a + ⌊(((b - a) * weight.toNat : Int) : ℚ) / 256⌋
  between : ∀ weight, min a b ≤ lerp a b weight ∧ lerp a b weight ≤ max a b
  mono_left : ∀ a' weight, a ≤ a' → lerp a b weight ≤ lerp a' b weight
  mono_right : ∀ b' weight, b ≤ b' → lerp a b weight ≤ lerp a b' weight
  /-- The weight leads from `a` toward `b`. -/
  toward : ∀ weight weight', weight ≤ weight' →
    (a ≤ b → lerp a b weight ≤ lerp a b weight') ∧ (b ≤ a → lerp a b weight' ≤ lerp a b weight)
  start : lerp a b 0 = a
  full_above : 1 ≤ b - a → b - a ≤ 256 → lerp a b 255 = b - 1
  full_below : 0 ≤ a - b → a - b ≤ 255 → lerp a b 255 = b

/-- It is known of numbers that are near enough for machine numbers to do. -/
theorem blendsWith (ha : Exact.IsSigned32 a) (hb : Exact.IsSigned32 b)
    (near : |b - a| ≤ 8421504) : BlendsWith a b where
  runs := fun weight => lerp?_eq_ok weight ha hb (abs_le.mp near)
  floor := lerp_eq_rat_floor a b
  between := lerp_mem a b
  mono_left := fun _ weight higher => lerp_mono higher le_rfl weight
  mono_right := fun _ weight higher => lerp_mono le_rfl higher weight
  toward := fun _ _ more => ⟨fun h => lerp_mono_weight h more, fun h => lerp_anti_weight h more⟩
  start := lerp_zero a b
  full_above := lerp_full_of_lt
  full_below := lerp_full_of_ge

/-! ### Colors -/

/-- Three operations blend channel by channel, exactly and without a fault: the destination toward
the source, the destination toward an ink, and one color toward another. -/
structure PixelFormat.BlendsChannels (f : PixelFormat) : Prop where
  blend : ∀ (weight : UInt8) (d c : Color f),
    ∃ r, (Operation.blend weight).combine? d c = .ok r ∧ d.Moved c weight r
  ink : ∀ (color d : Color f) (coverage : Color .gray8),
    ∃ r, (Operation.ink color).combine? d coverage = .ok r ∧
      d.Moved color coverage.luminosity r
  gradient : ∀ (low high d : Color f) (coverage : Color .gray8),
    ∃ r, (Operation.gradient low high).combine? d coverage = .ok r ∧
      low.Moved high coverage.luminosity r

theorem PixelFormat.blendsChannels (f : PixelFormat) : f.BlendsChannels where
  blend := fun weight d c => ⟨_, Operation.combine?_eq_ok _ d c, d.moved_blend c weight⟩
  ink := fun color d coverage =>
    ⟨_, Operation.combine?_eq_ok _ d coverage, d.moved_blend color coverage.luminosity⟩
  gradient := fun low high d coverage =>
    ⟨_, Operation.combine?_eq_ok _ d coverage, low.moved_blend high coverage.luminosity⟩

/-- Numbers that are no further apart than 8421504 are blended without overflow. The blend is what
the exact fraction is rounded down to, lies between the two, rises with either and moves from the
one to the other as the weight grows, up to the last but one above and to the last one below. So no
blend of colors faults, whatever the format, and each channel of it is exactly the blend of the two
channels: no bit is lost when the channels are put together again. -/
theorem blends_exact (f : PixelFormat) {a b : Int} (ha : Exact.IsSigned32 a)
    (hb : Exact.IsSigned32 b) (near : |b - a| ≤ 8421504) : BlendsWith a b ∧ f.BlendsChannels :=
  ⟨blendsWith ha hb near, f.blendsChannels⟩

/-- Two numbers as far apart as that, at the upper end of the machine numbers. -/
theorem blends_exact_far :
    Exact.IsSigned32 2139062143 ∧ Exact.IsSigned32 2147483647 ∧
      |(2147483647 : Int) - 2139062143| ≤ 8421504 ∧
      BlendsWith 2139062143 2147483647 ∧ PixelFormat.rgb565.BlendsChannels := by
  have low : Exact.IsSigned32 2139062143 := by decide
  have high : Exact.IsSigned32 2147483647 := by decide
  have near : |(2147483647 : Int) - 2139062143| ≤ 8421504 := by decide
  exact ⟨low, high, near, blends_exact .rgb565 low high near⟩

end Raster
