import Raster.Color.Basic
/-!
# Colors as words

A whole pixel read as one unsigned little-endian word: the bitwise operations work on
this form. `toWord` and `ofWord` are inverse to each other in every format.
-/

namespace Raster.Color

variable {f : PixelFormat}

/-- The word that holds the pixel; the first byte in memory is its lowest. -/
def toWord : Color f → f.Word
  | .gray y => y
  | .rgb565 p => p
  | .bgra b g r a =>
      b.toUInt32 ||| g.toUInt32 <<< 8 ||| r.toUInt32 <<< 16 ||| a.toUInt32 <<< 24

/-- The pixel that a word holds. -/
def ofWord : {f : PixelFormat} → f.Word → Color f
  | .gray8, w => .gray w
  | .rgb565, w => .rgb565 w
  | .bgra8888, (w : UInt32) =>
      .bgra w.toUInt8 (w >>> 8).toUInt8 (w >>> 16).toUInt8 (w >>> 24).toUInt8

/-- Four bytes put together, the lowest first. -/
theorem toNat_toWord_bgra (b g r a : UInt8) :
    (b.toUInt32 ||| g.toUInt32 <<< 8 ||| r.toUInt32 <<< 16 ||| a.toUInt32 <<< 24).toNat =
      b.toNat + g.toNat * 256 + r.toNat * 65536 + a.toNat * 16777216 := by
  have hb := b.toNat_lt
  have hg := g.toNat_lt
  have hr := r.toNat_lt
  have ha := a.toNat_lt
  simp only [UInt32.toNat_or, UInt8.toNat_toUInt32, UInt32.toNat_shiftLeft, UInt32.reduceToNat,
    Nat.shiftLeft_eq, Nat.reduceMod, Nat.reducePow,
    Nat.mod_eq_of_lt (show g.toNat * 256 < 4294967296 by omega),
    Nat.mod_eq_of_lt (show r.toNat * 65536 < 4294967296 by omega),
    Nat.mod_eq_of_lt (show a.toNat * 16777216 < 4294967296 by omega)]
  have join1 := Nat.shiftLeft_add_eq_or_of_lt (i := 8) hb g.toNat
  have join2 := Nat.shiftLeft_add_eq_or_of_lt (i := 16)
    (show g.toNat * 256 + b.toNat < 65536 by clear join1; omega) r.toNat
  have join3 := Nat.shiftLeft_add_eq_or_of_lt (i := 24)
    (show r.toNat * 65536 + (g.toNat * 256 + b.toNat) < 16777216 by clear join1 join2; omega)
    a.toNat
  simp only [Nat.shiftLeft_eq, Nat.reducePow] at join1 join2 join3
  rw [Nat.or_comm b.toNat, ← join1, Nat.or_comm _ (r.toNat * 65536), ← join2,
    Nat.or_comm _ (a.toNat * 16777216), ← join3]
  clear join1 join2 join3
  omega

@[simp] theorem ofWord_toWord (c : Color f) : ofWord c.toWord = c := by
  cases c with
  | gray y => rfl
  | rgb565 p => rfl
  | bgra b g r a =>
      have hb := b.toNat_lt
      have hg := g.toNat_lt
      have hr := r.toNat_lt
      have ha := a.toNat_lt
      simp only [toWord, ofWord, bgra.injEq]
      refine ⟨?_, ?_, ?_, ?_⟩ <;> apply UInt8.toNat_inj.mp <;>
        simp only [UInt32.toNat_toUInt8, UInt32.toNat_shiftRight, toNat_toWord_bgra,
          UInt32.reduceToNat, Nat.shiftRight_eq_div_pow, Nat.reduceMod, Nat.reducePow] <;>
        omega

@[simp] theorem toWord_ofWord (w : f.Word) : (ofWord w : Color f).toWord = w := by
  cases f with
  | gray8 => rfl
  | rgb565 => rfl
  | bgra8888 =>
      have hw := UInt32.toNat_lt w
      apply UInt32.toNat_inj.mp
      simp only [toWord, ofWord]
      rw [toNat_toWord_bgra]
      simp only [UInt32.toNat_toUInt8, UInt32.toNat_shiftRight, UInt32.reduceToNat,
        Nat.shiftRight_eq_div_pow, Nat.reduceMod, Nat.reducePow]
      omega

/-- Two colors with the same word are the same. -/
theorem toWord_inj {c d : Color f} : c.toWord = d.toWord ↔ c = d :=
  ⟨fun h => by rw [← ofWord_toWord c, h, ofWord_toWord], congrArg toWord⟩

def mapWord (g : f.Word → f.Word) (c : Color f) : Color f := ofWord (g c.toWord)

def zipWords (g : f.Word → f.Word → f.Word) (c d : Color f) : Color f :=
  ofWord (g c.toWord d.toWord)

@[simp] theorem toWord_mapWord (g : f.Word → f.Word) (c : Color f) :
    (c.mapWord g).toWord = g c.toWord := by
  simp [mapWord]

@[simp] theorem toWord_zipWords (g : f.Word → f.Word → f.Word) (c d : Color f) :
    (zipWords g c d).toWord = g c.toWord d.toWord := by
  simp [zipWords]

end Raster.Color
