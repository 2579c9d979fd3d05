import Raster.Color.Channels
/-!
# Colors from and to 8-bit RGB

`ofRgb` makes a color out of an opaque RGB triple and `rgba` expands a color to straight
RGBA, as it is shown or exported.

* `gray8` takes the luma with weights 77, 150 and 29 parts in 256 (they sum to 256, so
  gray triples keep their value) and expands to an opaque gray;
* `rgb565` drops the low bits of each sample, and expands a field by repeating its high
  bits below it, so that the darkest and the lightest level become 0 and 255;
* `bgra8888` keeps all samples; `ofRgb` is fully opaque and `rgba` keeps the alpha.
-/

namespace Raster

/-- A straight-alpha color, as pictures hold it. -/
structure Rgba where
  red : UInt8
  green : UInt8
  blue : UInt8
  /-- Alpha, 255 being opaque. -/
  alpha : UInt8
  deriving DecidableEq

def Rgba.bytes (c : Rgba) : List UInt8 := [c.red, c.green, c.blue, c.alpha]

namespace Color

/-- The color of format `f` for an opaque RGB triple. -/
def ofRgb : (f : PixelFormat) → (red green blue : UInt8) → Color f
  | .gray8, r, g, b =>
      .gray ((77 * r.toUInt32 + 150 * g.toUInt32 + 29 * b.toUInt32) >>> 8).toUInt8
  | .rgb565, r, g, b => .rgb565 (Rgb565.pack (r >>> 3) (g >>> 2) (b >>> 3))
  | .bgra8888, r, g, b => .bgra b g r 0xff

/-- A color expanded to RGBA. -/
def rgba {f : PixelFormat} : Color f → Rgba
  | .gray y => ⟨y, y, y, 0xff⟩
  | .rgb565 p =>
      let r := Rgb565.red p
      let g := Rgb565.green p
      let b := Rgb565.blue p
      ⟨r <<< 3 ||| r >>> 2, g <<< 2 ||| g >>> 4, b <<< 3 ||| b >>> 2, 0xff⟩
  | .bgra b g r a => ⟨r, g, b, a⟩

end Color

end Raster
