import Raster.Proofs.Exporting
/-!
# Which color is nearest

How good a color is for red, green and blue is seen where it is shown: the nearest one has the
smallest sum of the distances of its three samples (`Color.IsNearest`). The fields of an `rgb565`
color can be chosen one by one, so it is the nearest one exactly if each of its levels is
(`isNearest_rgb565_iff`).

The levels that are shown are the size of the spare bits apart, or one more
(`shown_add_le`, `shown_succ_le`), and so a level is the nearest one if it is at most half of that
off. `ofRgb` drops the low bits of a sample. Where it is shown, its high bits have taken their
place, and by the difference of the two it is off (`shown_level`). That can be nearly all of a step,
and then a neighbor is nearer: `isNearest_ofRgb_iff` says for which colors `ofRgb` finds the nearest
one, and how far off it is for all.
-/

namespace Raster

variable {f : PixelFormat}

/-! ### Distances -/

/-- How far a sample that is shown is from the one that was asked for. -/
def Sample.distance (x y : Nat) : Nat := ((x : Int) - y).natAbs

theorem Sample.distance_lt {x y bound : Nat} (hx : x < bound) (hy : y < bound) :
    distance x y < bound := by
  rw [distance]
  omega

namespace Color

/-- How far a color is from red, green and blue, as it is shown. -/
def distance (c : Color f) (r g b : UInt8) : Nat :=
  Sample.distance c.rgba.red.toNat r.toNat + Sample.distance c.rgba.green.toNat g.toNat +
    Sample.distance c.rgba.blue.toNat b.toNat

/-- No color of the format is nearer. -/
def IsNearest (c : Color f) (r g b : UInt8) : Prop :=
  ∀ c' : Color f, c.distance r g b ≤ c'.distance r g b

end Color

/-! ### Levels -/

namespace Rgb565

/-- No level of a field that has `spare` bits fewer than a sample is nearer. -/
def IsNearestLevel (spare level x : Nat) : Prop :=
  ∀ level' < 2 ^ (8 - spare),
    Sample.distance (shown spare level) x ≤ Sample.distance (shown spare level') x

/-- By how much the low bits of a sample differ from its high bits. -/
def deviation (spare x : Nat) : Nat := Sample.distance (x / 2 ^ (8 - spare)) (x % 2 ^ spare)

variable {spare level level' x : Nat}

theorem shown_add_le (spare : Nat) (above : level < level') :
    shown spare level + 2 ^ spare ≤ shown spare level' := by
  have high := Nat.mul_le_mul_right (2 ^ spare) (Nat.succ_le_of_lt above)
  have low := Nat.div_le_div_right (c := 2 ^ (8 - 2 * spare)) (Nat.le_of_lt above)
  rw [Nat.succ_mul] at high
  rw [shown, shown]
  omega

theorem shown_succ_le (spare level : Nat) :
    shown spare (level + 1) ≤ shown spare level + 2 ^ spare + 1 := by
  have low : (level + 1) / 2 ^ (8 - 2 * spare) ≤ level / 2 ^ (8 - 2 * spare) + 1 := by
    rw [← Nat.add_div_right _ (Nat.two_pow_pos _)]
    exact Nat.div_le_div_right (Nat.add_le_add_left (Nat.two_pow_pos _) _)
  rw [shown, shown, Nat.succ_mul]
  omega

/-- A level is the nearest one if it is no more than half a step off. It is closed in by its
neighbors; the last level must not be too dark, and the first one not too bright. -/
theorem isNearestLevel_iff {half : Nat} (step : 2 ^ spare = 2 * half)
    (dark : shown spare level < x → level + 1 < 2 ^ (8 - spare))
    (bright : x < shown spare level → 0 < level ∧ level < 2 ^ (8 - spare)) :
    IsNearestLevel spare level x ↔ Sample.distance (shown spare level) x ≤ half := by
  have long := Nat.two_pow_pos spare
  simp only [IsNearestLevel, Sample.distance]
  constructor
  · intro nearest
    rcases Nat.lt_trichotomy (shown spare level) x with low | even | high
    · have above := nearest (level + 1) (dark low)
      have apart := shown_add_le spare (Nat.lt_add_one level)
      have close := shown_succ_le spare level
      omega
    · rw [even]
      omega
    · obtain ⟨pos, fits⟩ := bright high
      have below := nearest (level - 1) (Nat.lt_of_le_of_lt (Nat.sub_le _ _) fits)
      have apart := shown_add_le spare (Nat.sub_lt pos Nat.one_pos)
      have close := shown_succ_le spare (level - 1)
      rw [Nat.sub_add_cancel pos] at close
      omega
  · intro near level' _
    rcases Nat.lt_trichotomy level' level with below | same | above
    · have apart := shown_add_le spare below
      omega
    · exact Nat.le_of_eq (by rw [same])
    · have apart := shown_add_le spare above
      omega

/-! ### The level of a sample -/

/-- The low bits of a sample are dropped, and where it is shown the high bits are in their place. -/
theorem shown_level (small : spare ≤ 4) (x : Nat) :
    shown spare (x / 2 ^ spare) + x % 2 ^ spare = x + x / 2 ^ (8 - spare) := by
  have width : spare + (8 - 2 * spare) = 8 - spare := by omega
  have sample := Nat.div_add_mod' x (2 ^ spare)
  rw [shown, Nat.div_div_eq_div_mul, ← Nat.pow_add, width]
  omega

theorem distance_level (small : spare ≤ 4) (x : Nat) :
    Sample.distance (shown spare (x / 2 ^ spare)) x = deviation spare x := by
  have level := shown_level small x
  rw [deviation, Sample.distance, Sample.distance]
  omega

/-- The steps of a field are as many as a step of the others is long. -/
theorem steps_mul (small : spare ≤ 4) : 2 ^ (8 - spare) * 2 ^ spare = 256 := by
  have width : 8 - spare + spare = 8 := by omega
  rw [← Nat.pow_add, width]

theorem deviation_lt (small : spare ≤ 4) (sample : x < 256) : deviation spare x < 2 ^ spare := by
  have high : x / 2 ^ (8 - spare) < 2 ^ spare := by
    rwa [Nat.div_lt_iff_lt_mul (Nat.two_pow_pos _), Nat.mul_comm, steps_mul small]
  exact Sample.distance_lt high (Nat.mod_lt x (Nat.two_pow_pos spare))

/-- A level that is shown too dark is not the last one. -/
theorem level_succ_lt (small : spare ≤ 4) (dark : x / 2 ^ (8 - spare) < x % 2 ^ spare) :
    x / 2 ^ spare + 1 < 2 ^ (8 - spare) := by
  have order : 2 ^ spare ≤ 2 ^ (8 - spare) := Nat.pow_le_pow_right (by decide) (by omega)
  have low := Nat.mod_lt x (Nat.two_pow_pos spare)
  have room : x / 2 ^ (8 - spare) + 1 < 2 ^ spare := by omega
  rw [← Nat.add_div_right _ (Nat.two_pow_pos _), Nat.div_lt_iff_lt_mul (Nat.two_pow_pos _),
    Nat.mul_comm, steps_mul small] at room
  rw [← Nat.add_div_right _ (Nat.two_pow_pos _), Nat.div_lt_iff_lt_mul (Nat.two_pow_pos _),
    steps_mul small]
  omega

/-- And one that is shown too bright is not the first one. -/
theorem level_pos (small : spare ≤ 4) (bright : x % 2 ^ spare < x / 2 ^ (8 - spare)) :
    0 < x / 2 ^ spare := by
  have order : 2 ^ spare ≤ 2 ^ (8 - spare) := Nat.pow_le_pow_right (by decide) (by omega)
  have high := (Nat.div_pos_iff.mp (Nat.zero_lt_of_lt bright)).2
  exact Nat.div_pos (Nat.le_trans order high) (Nat.two_pow_pos spare)

/-- The level that is left of a sample. -/
theorem isNearestLevel_level_iff {half : Nat} (step : 2 ^ spare = 2 * half) (small : spare ≤ 4)
    (sample : x < 256) :
    IsNearestLevel spare (x / 2 ^ spare) x ↔ deviation spare x ≤ half := by
  have level := shown_level small x
  rw [← distance_level small]
  refine isNearestLevel_iff step ?_ ?_
  · intro dark
    exact level_succ_lt small (by omega)
  · intro bright
    refine ⟨level_pos small (by omega), ?_⟩
    rwa [Nat.div_lt_iff_lt_mul (Nat.two_pow_pos _), steps_mul small]

end Rgb565

/-! ### Colors -/

namespace Color

open Rgb565

theorem distance_rgb565 (p : UInt16) (r g b : UInt8) :
    (rgb565 p).distance r g b = Sample.distance (shown 3 (red p).toNat) r.toNat +
      Sample.distance (shown 2 (green p).toNat) g.toNat +
      Sample.distance (shown 3 (blue p).toNat) b.toNat := by
  obtain ⟨red, green, blue⟩ := rgba_rgb565 p
  rw [distance, red, green, blue]

/-- Levels that their fields have room for are those of a color. -/
theorem exists_distance {red' green' blue' : Nat} (hr : red' < 32) (hg : green' < 64)
    (hb : blue' < 32) : ∃ c : Color .rgb565, ∀ r g b,
      c.distance r g b = Sample.distance (shown 3 red') r.toNat +
        Sample.distance (shown 2 green') g.toNat + Sample.distance (shown 3 blue') b.toNat := by
  have sample : ∀ level < 64, ∃ x : UInt8, x.toNat = level := fun level fits =>
    ⟨.ofNat level, UInt8.toNat_ofNat_of_lt' (Nat.lt_trans fits (by decide))⟩
  obtain ⟨r', rfl⟩ := sample red' (by omega)
  obtain ⟨g', rfl⟩ := sample green' hg
  obtain ⟨b', rfl⟩ := sample blue' (by omega)
  obtain ⟨red, green, blue⟩ := fields_pack hr hg hb
  refine ⟨rgb565 (pack r' g' b'), ?_⟩
  intro r g b
  rw [distance_rgb565, red, green, blue]

/-- The fields of a color are chosen one by one. -/
theorem isNearest_rgb565_iff (p : UInt16) (r g b : UInt8) :
    (rgb565 p).IsNearest r g b ↔ IsNearestLevel 3 (red p).toNat r.toNat ∧
      IsNearestLevel 2 (green p).toNat g.toNat ∧ IsNearestLevel 3 (blue p).toNat b.toNat := by
  constructor
  · intro nearest
    have least : ∀ red' < 32, ∀ green' < 64, ∀ blue' < 32,
        Sample.distance (shown 3 (red p).toNat) r.toNat +
            Sample.distance (shown 2 (green p).toNat) g.toNat +
            Sample.distance (shown 3 (blue p).toNat) b.toNat ≤
          Sample.distance (shown 3 red') r.toNat + Sample.distance (shown 2 green') g.toNat +
            Sample.distance (shown 3 blue') b.toNat := by
      intro red' hr green' hg blue' hb
      obtain ⟨c, distance⟩ := exists_distance hr hg hb
      rw [← distance, ← distance_rgb565]
      exact nearest c
    -- The colors that differ in one field only are enough.
    refine ⟨?_, ?_, ?_⟩
    · intro level fits
      exact Nat.le_of_add_le_add_right (Nat.le_of_add_le_add_right
        (least level fits _ (green_lt p) _ (blue_lt p)))
    · intro level fits
      exact Nat.le_of_add_le_add_left (Nat.le_of_add_le_add_right
        (least _ (red_lt p) level fits _ (blue_lt p)))
    · intro level fits
      exact Nat.le_of_add_le_add_left (least _ (red_lt p) _ (green_lt p) level fits)
  · rintro ⟨redNearest, greenNearest, blueNearest⟩ c
    cases c with
    | rgb565 q =>
        rw [distance_rgb565, distance_rgb565]
        exact Nat.add_le_add
          (Nat.add_le_add (redNearest _ (red_lt q)) (greenNearest _ (green_lt q)))
          (blueNearest _ (blue_lt q))

/-- The levels that are left of the samples. -/
theorem levels_ofRgb (r g b : UInt8) : ∃ p, ofRgb .rgb565 r g b = rgb565 p ∧
    (red p).toNat = r.toNat / 2 ^ 3 ∧ (green p).toNat = g.toNat / 2 ^ 2 ∧
    (blue p).toNat = b.toNat / 2 ^ 3 := by
  refine ⟨_, rfl, ?_⟩
  have hr := r.toNat_lt
  have hg := g.toNat_lt
  have hb := b.toNat_lt
  have toNat_red : (r >>> 3).toNat = r.toNat / 2 ^ 3 := Nat.shiftRight_eq_div_pow _ _
  have toNat_green : (g >>> 2).toNat = g.toNat / 2 ^ 2 := Nat.shiftRight_eq_div_pow _ _
  have toNat_blue : (b >>> 3).toNat = b.toNat / 2 ^ 3 := Nat.shiftRight_eq_div_pow _ _
  obtain ⟨red, green, blue⟩ := fields_pack (r := r >>> 3) (g := g >>> 2) (b := b >>> 3)
    (by omega) (by omega) (by omega)
  rw [red, green, blue]
  exact ⟨toNat_red, toNat_green, toNat_blue⟩

/-- In `rgb565`, the color that is made of red, green and blue is off by as much as the low bits of
the samples, which are dropped, differ from their high bits, which are shown in their place. No
color is nearer exactly if that is no more than half a step for each of the three, which is four,
two and four. It is never more than 17 in all. -/
theorem isNearest_ofRgb_iff (r g b : UInt8) :
    ((ofRgb .rgb565 r g b).IsNearest r g b ↔ deviation 3 r.toNat ≤ 4 ∧ deviation 2 g.toNat ≤ 2 ∧
      deviation 3 b.toNat ≤ 4) ∧
    (ofRgb .rgb565 r g b).distance r g b =
      deviation 3 r.toNat + deviation 2 g.toNat + deviation 3 b.toNat ∧
    (ofRgb .rgb565 r g b).distance r g b ≤ 17 := by
  obtain ⟨p, made, red, green, blue⟩ := levels_ofRgb r g b
  have distance : (ofRgb .rgb565 r g b).distance r g b =
      deviation 3 r.toNat + deviation 2 g.toNat + deviation 3 b.toNat := by
    rw [made, distance_rgb565, red, green, blue, distance_level (by decide),
      distance_level (by decide), distance_level (by decide)]
  refine ⟨?_, distance, ?_⟩
  · rw [made, isNearest_rgb565_iff, red, green, blue,
      isNearestLevel_level_iff (show 2 ^ 3 = 2 * 4 from rfl) (by decide) r.toNat_lt,
      isNearestLevel_level_iff (show 2 ^ 2 = 2 * 2 from rfl) (by decide) g.toNat_lt,
      isNearestLevel_level_iff (show 2 ^ 3 = 2 * 4 from rfl) (by decide) b.toNat_lt]
  · have atMostRed := deviation_lt (show 3 ≤ 4 by decide) r.toNat_lt
    have atMostGreen := deviation_lt (show 2 ≤ 4 by decide) g.toNat_lt
    have atMostBlue := deviation_lt (show 3 ≤ 4 by decide) b.toNat_lt
    omega

/-- A dark red is made black, although there is a red that is nearer. -/
theorem not_isNearest_ofRgb_dark : ¬ (ofRgb .rgb565 7 0 0).IsNearest 7 0 0 := by
  intro nearest
  exact absurd (nearest (rgb565 0x0800)) (by decide)

end Color

end Raster
