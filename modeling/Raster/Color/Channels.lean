import Raster.Color.Basic
/-!
# The channels of a color

A color is made of channels that can be worked on one by one. `mapChannels` and
`zipChannels` apply a function of samples to every channel and put the color together
again; `zipChannels?` does so with a function that may fault.

The channels of `rgb565` are five and six bits wide while the functions work on eight:
`Rgb565.pack` drops what does not fit. The four lemmas `toNat_red`, `toNat_green`,
`toNat_blue` and `toNat_pack` give the fields as quotients and remainders, and
`pack_fields` says that taking a word apart loses nothing.
-/

namespace Raster

namespace Rgb565

def red (packed : UInt16) : UInt8 := (packed >>> 11 &&& 0x1f).toUInt8

def green (packed : UInt16) : UInt8 := (packed >>> 5 &&& 0x3f).toUInt8

def blue (packed : UInt16) : UInt8 := (packed &&& 0x1f).toUInt8

/-- Three fields put together. Bits of a sample that its field has no room for are
dropped. -/
def pack (red green blue : UInt8) : UInt16 :=
  (red.toUInt16 &&& 0x1f) <<< 11 ||| (green.toUInt16 &&& 0x3f) <<< 5 |||
    (blue.toUInt16 &&& 0x1f)

theorem toNat_red (p : UInt16) : (red p).toNat = p.toNat / 2048 % 32 := by
  have mask := Nat.and_two_pow_sub_one_eq_mod (p.toNat / 2048 % 256) 5
  simp [red, Nat.shiftRight_eq_div_pow] at mask ⊢
  omega

theorem toNat_green (p : UInt16) : (green p).toNat = p.toNat / 32 % 64 := by
  have mask := Nat.and_two_pow_sub_one_eq_mod (p.toNat / 32 % 256) 6
  simp [green, Nat.shiftRight_eq_div_pow] at mask ⊢
  omega

theorem toNat_blue (p : UInt16) : (blue p).toNat = p.toNat % 32 := by
  have mask := Nat.and_two_pow_sub_one_eq_mod (p.toNat % 256) 5
  simp [blue] at mask ⊢
  omega

theorem toNat_pack (r g b : UInt8) :
    (pack r g b).toNat = r.toNat % 32 * 2048 + g.toNat % 64 * 32 + b.toNat % 32 := by
  have maskRed := Nat.and_two_pow_sub_one_eq_mod r.toNat 5
  have maskGreen := Nat.and_two_pow_sub_one_eq_mod g.toNat 6
  have maskBlue := Nat.and_two_pow_sub_one_eq_mod b.toNat 5
  have high := Nat.shiftLeft_add_eq_or_of_lt (b := g.toNat % 64 * 32) (i := 11) (by omega)
    (r.toNat % 32)
  have low := Nat.shiftLeft_add_eq_or_of_lt (b := b.toNat % 32) (i := 5) (by omega)
    (r.toNat % 32 * 64 + g.toNat % 64)
  simp only [Nat.shiftLeft_eq, Nat.reducePow, Nat.reduceSub] at maskRed maskGreen maskBlue high low
  simp only [pack, UInt16.toNat_or, UInt16.toNat_shiftLeft, UInt16.toNat_and,
    UInt8.toNat_toUInt16, UInt16.reduceToNat, maskRed, maskGreen, maskBlue, Nat.shiftLeft_eq]
  have fitsRed : r.toNat % 32 * 2048 % 65536 = r.toNat % 32 * 2048 := by omega
  have fitsGreen : g.toNat % 64 * 32 % 65536 = g.toNat % 64 * 32 := by omega
  have join : r.toNat % 32 * 2048 + g.toNat % 64 * 32 =
      (r.toNat % 32 * 64 + g.toNat % 64) * 32 := by omega
  simp only [Nat.reduceMod, Nat.reducePow, fitsRed, fitsGreen, ← high, join, low]

/-- Taking a word apart and putting it together again loses nothing. -/
@[simp] theorem pack_fields (p : UInt16) : pack (red p) (green p) (blue p) = p := by
  apply UInt16.toNat_inj.mp
  have := p.toNat_lt
  simp only [toNat_pack, toNat_red, toNat_green, toNat_blue]
  omega

end Rgb565

namespace Color

variable {f : PixelFormat}

/-- The channels: red, green and blue of `rgb565`; blue, green, red and alpha of
`bgra8888`. -/
def channels : Color f → List UInt8
  | .gray y => [y]
  | .rgb565 p => [Rgb565.red p, Rgb565.green p, Rgb565.blue p]
  | .bgra b g r a => [b, g, r, a]

def mapChannels (g : UInt8 → UInt8) : Color f → Color f
  | .gray y => .gray (g y)
  | .rgb565 p => .rgb565 (Rgb565.pack (g (Rgb565.red p)) (g (Rgb565.green p)) (g (Rgb565.blue p)))
  | .bgra b gr r a => .bgra (g b) (g gr) (g r) (g a)

def zipChannels (g : UInt8 → UInt8 → UInt8) : Color f → Color f → Color f
  | .gray y, .gray y' => .gray (g y y')
  | .rgb565 p, .rgb565 q =>
      .rgb565 (Rgb565.pack (g (Rgb565.red p) (Rgb565.red q))
        (g (Rgb565.green p) (Rgb565.green q)) (g (Rgb565.blue p) (Rgb565.blue q)))
  | .bgra b gr r a, .bgra b' gr' r' a' => .bgra (g b b') (g gr gr') (g r r') (g a a')

/-- Combine two colors channel by channel, with a function that may fault. -/
def zipChannels? (g : UInt8 → UInt8 → Except Fault UInt8) :
    Color f → Color f → Except Fault (Color f)
  | .gray y, .gray y' => do return .gray (← g y y')
  | .rgb565 p, .rgb565 q => do
      let red ← g (Rgb565.red p) (Rgb565.red q)
      let green ← g (Rgb565.green p) (Rgb565.green q)
      let blue ← g (Rgb565.blue p) (Rgb565.blue q)
      return .rgb565 (Rgb565.pack red green blue)
  | .bgra b gr r a, .bgra b' gr' r' a' => do
      return .bgra (← g b b') (← g gr gr') (← g r r') (← g a a')

/-- Colors meet no fault where none of their channels does. -/
theorem zipChannels?_eq_ok {g : UInt8 → UInt8 → Except Fault UInt8} {h : UInt8 → UInt8 → UInt8}
    (total : ∀ x y, g x y = .ok (h x y)) (c d : Color f) :
    zipChannels? g c d = .ok (zipChannels h c d) := by
  cases c with
  | gray y => cases d; simp only [zipChannels?, total]; rfl
  | rgb565 p => cases d; simp only [zipChannels?, total]; rfl
  | bgra b gr r a => cases d; simp only [zipChannels?, total]; rfl

/-- Black is what a glyph bitmap leaves unpainted: no red, green or blue, with any
alpha. -/
def isBlack : Color f → Bool
  | .gray y => y == 0
  | .rgb565 p => p == 0
  | .bgra b g r _ => r == 0 && g == 0 && b == 0

end Color

end Raster
