import Raster.Operation.Basic
/-!
# What operations make of colors

What each operation makes of a pixel is written down once more, as a table of what must hold
between the old destination, the source and the new destination (`Operation.Draws`): bitwise
operations on the words of the three, blends on their channels as exact integers.
`draws_result` says that drawing keeps to the table. It rests on two things:

* a word is its channels side by side, so a function of single bits may as well be applied to
  the channels as to the word. `toWord_complement` and `toWord_bitwise` come from the bits of
  a word (`Rgb565.testBit_pack`, `Color.testBit_joinQuad`);
* blending is done on the channels, and no bit of a blended channel is dropped when the color
  is put together again (`channels_blend`).
-/

namespace Raster

namespace Rgb565

/-- The bits of a word are those of its fields. -/
theorem testBit_pack (r g b : UInt8) (i : Nat) :
    (pack r g b).toNat.testBit i =
      if i < 5 then b.toNat.testBit i
      else if i < 11 then g.toNat.testBit (i - 5)
      else decide (i < 16) && r.toNat.testBit (i - 11) := by
  -- Written with powers of two, the fields come off one at a time.
  have word : (pack r g b).toNat =
      2 ^ 5 * (2 ^ 6 * (r.toNat % 2 ^ 5) + g.toNat % 2 ^ 6) + b.toNat % 2 ^ 5 := by
    rw [toNat_pack]
    omega
  rw [word, Nat.testBit_two_pow_mul_add _ (Nat.mod_lt _ (by decide)),
    Nat.testBit_two_pow_mul_add _ (Nat.mod_lt _ (by decide)), Nat.testBit_mod_two_pow,
    Nat.testBit_mod_two_pow, Nat.testBit_mod_two_pow]
  by_cases blue : i < 5
  · simp [blue]
  · by_cases green : i < 11
    · have inside : i - 5 < 6 := by omega
      simp [blue, green, inside]
    · have beyond : ¬ i - 5 < 6 := by omega
      have place : i - 5 - 6 = i - 11 := by omega
      have top : i - 11 < 5 ↔ i < 16 := by omega
      simp [blue, green, beyond, place, top]

theorem pack_or (r g b r' g' b' : UInt8) :
    pack (r ||| r') (g ||| g') (b ||| b') = pack r g b ||| pack r' g' b' := by
  refine UInt16.toNat_inj.mp ?_
  refine Nat.eq_of_testBit_eq ?_
  intro i
  simp only [UInt16.toNat_or, UInt8.toNat_or, Nat.testBit_or, testBit_pack]
  grind

theorem pack_and (r g b r' g' b' : UInt8) :
    pack (r &&& r') (g &&& g') (b &&& b') = pack r g b &&& pack r' g' b' := by
  refine UInt16.toNat_inj.mp ?_
  refine Nat.eq_of_testBit_eq ?_
  intro i
  simp only [UInt16.toNat_and, UInt8.toNat_and, Nat.testBit_and, testBit_pack]
  grind

theorem pack_not (r g b : UInt8) : pack (~~~ r) (~~~ g) (~~~ b) = ~~~ pack r g b := by
  refine UInt16.toNat_inj.mp ?_
  have hr := r.toNat_lt
  have hg := g.toNat_lt
  have hb := b.toNat_lt
  simp only [toNat_pack, UInt16.toNat_not, UInt8.toNat_not, UInt8.size, UInt16.size]
  omega

theorem red_lt (p : UInt16) : (red p).toNat < 32 := by
  rw [toNat_red]
  omega

theorem green_lt (p : UInt16) : (green p).toNat < 64 := by
  rw [toNat_green]
  omega

theorem blue_lt (p : UInt16) : (blue p).toNat < 32 := by
  rw [toNat_blue]
  omega

/-- Samples that their fields have room for are read back. -/
theorem fields_pack {r g b : UInt8} (hr : r.toNat < 32) (hg : g.toNat < 64) (hb : b.toNat < 32) :
    red (pack r g b) = r ∧ green (pack r g b) = g ∧ blue (pack r g b) = b := by
  refine ⟨?_, ?_, ?_⟩
  · refine UInt8.toNat_inj.mp ?_
    rw [toNat_red, toNat_pack]
    omega
  · refine UInt8.toNat_inj.mp ?_
    rw [toNat_green, toNat_pack]
    omega
  · refine UInt8.toNat_inj.mp ?_
    rw [toNat_blue, toNat_pack]
    omega

end Rgb565

namespace Color

variable {f : PixelFormat}

/-! ### Words -/

/-- Four bytes in one word, the first one lowest. -/
def joinQuad (b g r a : UInt8) : UInt32 :=
  b.toUInt32 ||| g.toUInt32 <<< 8 ||| r.toUInt32 <<< 16 ||| a.toUInt32 <<< 24

theorem toNat_joinQuad (b g r a : UInt8) :
    (joinQuad b g r a).toNat =
      b.toNat + g.toNat * 256 + r.toNat * 65536 + a.toNat * 16777216 := toNat_toWord_bgra b g r a

/-- The bits of a word are those of its bytes. -/
theorem testBit_joinQuad (b g r a : UInt8) (i : Nat) :
    (joinQuad b g r a).toNat.testBit i =
      if i < 8 then b.toNat.testBit i
      else if i < 16 then g.toNat.testBit (i - 8)
      else if i < 24 then r.toNat.testBit (i - 16)
      else a.toNat.testBit (i - 24) := by
  have word : (joinQuad b g r a).toNat =
      2 ^ 8 * (2 ^ 8 * (2 ^ 8 * a.toNat + r.toNat) + g.toNat) + b.toNat := by
    rw [toNat_joinQuad]
    omega
  rw [word, Nat.testBit_two_pow_mul_add _ b.toNat_lt, Nat.testBit_two_pow_mul_add _ g.toNat_lt,
    Nat.testBit_two_pow_mul_add _ r.toNat_lt]
  by_cases blue : i < 8
  · rw [if_pos blue, if_pos blue]
  · by_cases green : i < 16
    · rw [if_neg blue, if_neg blue, if_pos green, if_pos (by omega)]
    · by_cases red : i < 24
      · have place : i - 8 - 8 = i - 16 := by omega
        rw [if_neg blue, if_neg blue, if_neg green, if_neg (by omega), if_pos red,
          if_pos (by omega), place]
      · have place : i - 8 - 8 - 8 = i - 24 := by omega
        rw [if_neg blue, if_neg blue, if_neg green, if_neg (by omega), if_neg red,
          if_neg (by omega), place]

theorem joinQuad_or (b g r a b' g' r' a' : UInt8) :
    joinQuad (b ||| b') (g ||| g') (r ||| r') (a ||| a') =
      joinQuad b g r a ||| joinQuad b' g' r' a' := by
  refine UInt32.toNat_inj.mp ?_
  refine Nat.eq_of_testBit_eq ?_
  intro i
  simp only [UInt32.toNat_or, UInt8.toNat_or, Nat.testBit_or, testBit_joinQuad]
  grind

theorem joinQuad_and (b g r a b' g' r' a' : UInt8) :
    joinQuad (b &&& b') (g &&& g') (r &&& r') (a &&& a') =
      joinQuad b g r a &&& joinQuad b' g' r' a' := by
  refine UInt32.toNat_inj.mp ?_
  refine Nat.eq_of_testBit_eq ?_
  intro i
  simp only [UInt32.toNat_and, UInt8.toNat_and, Nat.testBit_and, testBit_joinQuad]
  grind

theorem joinQuad_not (b g r a : UInt8) :
    joinQuad (~~~ b) (~~~ g) (~~~ r) (~~~ a) = ~~~ joinQuad b g r a := by
  refine UInt32.toNat_inj.mp ?_
  have hb := b.toNat_lt
  have hg := g.toNat_lt
  have hr := r.toNat_lt
  have ha := a.toNat_lt
  simp only [toNat_joinQuad, UInt32.toNat_not, UInt8.toNat_not, UInt8.size, UInt32.size]
  omega

/-! ### Bitwise operations on words -/

/-- The complement of a color is that of its word. -/
theorem toWord_complement (unit : Granularity) (c : Color f) :
    (c.complement unit).toWord = ~~~ c.toWord := by
  cases unit with
  | word => exact toWord_mapWord _ c
  | channel =>
      cases c with
      | gray y => rfl
      | rgb565 p =>
          show Rgb565.pack _ _ _ = ~~~ p
          rw [Rgb565.pack_not, Rgb565.pack_fields]
      | bgra b g r a => exact joinQuad_not b g r a

/-- To invert a color twice gives it back. -/
@[simp] theorem complement_complement (unit : Granularity) (c : Color f) :
    (c.complement unit).complement unit = c := by
  refine toWord_inj.mp ?_
  rw [toWord_complement, toWord_complement]
  cases f with
  | gray8 => exact UInt8.not_not
  | rgb565 => exact UInt16.not_not
  | bgra8888 => exact UInt32.not_not

theorem complement_inj {unit : Granularity} {c d : Color f} :
    c.complement unit = d.complement unit ↔ c = d := by
  refine ⟨fun h => ?_, congrArg _⟩
  rw [← complement_complement unit c, h, complement_complement]

/-- A bitwise operation on colors is the one on their words. -/
theorem toWord_bitwise (unit : Granularity) (op : BitwiseOp) (d c : Color f) :
    (bitwise unit op d c).toWord = op.eval d.toWord c.toWord := by
  cases unit with
  | word => exact toWord_zipWords _ d c
  | channel =>
      cases d with
      | gray y =>
          cases c
          rfl
      | rgb565 p =>
          cases c with
          | rgb565 q =>
              cases op with
              | or =>
                  show Rgb565.pack _ _ _ = p ||| q
                  rw [BitwiseOp.eval, BitwiseOp.eval, BitwiseOp.eval, Rgb565.pack_or,
                    Rgb565.pack_fields, Rgb565.pack_fields]
              | and =>
                  show Rgb565.pack _ _ _ = p &&& q
                  rw [BitwiseOp.eval, BitwiseOp.eval, BitwiseOp.eval, Rgb565.pack_and,
                    Rgb565.pack_fields, Rgb565.pack_fields]
              | orNot =>
                  show Rgb565.pack _ _ _ = p ||| ~~~ q
                  rw [BitwiseOp.eval, BitwiseOp.eval, BitwiseOp.eval, Rgb565.pack_or,
                    Rgb565.pack_not, Rgb565.pack_fields, Rgb565.pack_fields]
      | bgra b g r a =>
          cases c with
          | bgra b' g' r' a' =>
              cases op with
              | or => exact joinQuad_or b g r a b' g' r' a'
              | and => exact joinQuad_and b g r a b' g' r' a'
              | orNot =>
                  show joinQuad _ _ _ _ = joinQuad b g r a ||| ~~~ joinQuad b' g' r' a'
                  rw [← joinQuad_not, ← joinQuad_or]
                  rfl

/-! ### Blending -/

/-- A blend of two samples with few bits has few bits. -/
theorem toNat_lerp_lt {x y : UInt8} (weight : UInt8) {bound : Nat} (hx : x.toNat < bound)
    (hy : y.toNat < bound) : (Sample.lerp x y weight).toNat < bound := by
  have between := lerp_mem (Sample.toInt x) (Sample.toInt y) weight
  have value := Sample.toInt_lerp x y weight
  simp only [Sample.toInt] at between value
  omega

/-- The channels of a blend are the blends of the channels. -/
theorem channels_blend (weight : UInt8) (a b : Color f) :
    (zipChannels (Sample.lerp · · weight) a b).channels =
      List.zipWith (Sample.lerp · · weight) a.channels b.channels := by
  cases a with
  | gray y =>
      cases b
      rfl
  | bgra b g r a =>
      cases b
      rfl
  | rgb565 p =>
      cases b with
      | rgb565 q =>
          have red := toNat_lerp_lt weight (Rgb565.red_lt p) (Rgb565.red_lt q)
          have green := toNat_lerp_lt weight (Rgb565.green_lt p) (Rgb565.green_lt q)
          have blue := toNat_lerp_lt weight (Rgb565.blue_lt p) (Rgb565.blue_lt q)
          obtain ⟨red, green, blue⟩ := Rgb565.fields_pack red green blue
          simp only [zipChannels, channels, red, green, blue]
          rfl

end Color

/-! ### The table of operations -/

variable {f s : PixelFormat}

/-- Every channel of `r` is that of `a` moved toward that of `b` by `weight` parts in 256, in
exact integers and rounded toward negative infinity. -/
def Color.Moved (a b : Color f) (weight : UInt8) (r : Color f) : Prop :=
  r.channels.map Sample.toInt = List.zipWith (fun x y : UInt8 =>
    Sample.toInt x + ((Sample.toInt y - Sample.toInt x) * Sample.toInt weight) >>> (8 : Nat))
      a.channels b.channels

/-- A destination of color `d` is left with color `r` when `c` is drawn onto it. -/
def Operation.Draws : Operation f s → (d : Color f) → (c : Color s) → (r : Color f) → Prop
  | .copy, _, c, r => r = c
  | .invert _, _, c, r => r.toWord = ~~~ c.toWord
  | .bitwise _ .or, d, c, r => r.toWord = d.toWord ||| c.toWord
  | .bitwise _ .and, d, c, r => r.toWord = d.toWord &&& c.toWord
  | .bitwise _ .orNot, d, c, r => r.toWord = d.toWord ||| ~~~ c.toWord
  | .blend weight, d, c, r => d.Moved c weight r
  | .ink color, d, c, r => d.Moved color c.luminosity r
  | .gradient low high, _, c, r => low.Moved high c.luminosity r
  | .glyph background text, _, c, r => r = if c.isBlack then background else text
  | .keyed key, d, c, r => r = if c = key then d else c
  | .keyedInvert key, d, c, r => if c = key then r = d else r.toWord = ~~~ c.toWord

/-- A blend moves every channel. -/
theorem Color.moved_blend (a b : Color f) (weight : UInt8) :
    a.Moved b weight (zipChannels (Sample.lerp · · weight) a b) := by
  rw [Moved, channels_blend, List.map_zipWith]
  congr 1
  funext x y
  exact Sample.toInt_lerp x y weight

/-- Drawing keeps to the table. -/
theorem Operation.draws_result (op : Operation f s) (d : Color f) (c : Color s) :
    op.Draws d c (op.result d c) := by
  cases op with
  | copy => rfl
  | invert unit => exact Color.toWord_complement unit c
  | bitwise unit op =>
      cases op with
      | or => exact Color.toWord_bitwise unit .or d c
      | and => exact Color.toWord_bitwise unit .and d c
      | orNot => exact Color.toWord_bitwise unit .orNot d c
  | blend weight => exact d.moved_blend c weight
  | ink color => exact d.moved_blend color c.luminosity
  | gradient low high => exact low.moved_blend high c.luminosity
  | glyph background text => rfl
  | keyed key =>
      by_cases same : c = key
      · have skipped : (keyed key).skips c = true := beq_iff_eq.mpr same
        rw [result_of_skips skipped]
        exact (if_pos same).symm
      · have drawn : (keyed key).skips c = false := beq_eq_false_iff_ne.mpr same
        rw [result_of_not_skips drawn]
        exact (if_neg same).symm
  | keyedInvert key =>
      simp only [Draws]
      by_cases same : c = key
      · have skipped : (keyedInvert key).skips c = true := beq_iff_eq.mpr same
        rw [if_pos same, result_of_skips skipped]
      · have drawn : (keyedInvert key).skips c = false := beq_eq_false_iff_ne.mpr same
        rw [if_neg same, result_of_not_skips drawn]
        exact Color.toWord_complement .word c

end Raster
