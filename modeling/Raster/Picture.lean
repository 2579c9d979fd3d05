import Raster.Color.Rgb
import Raster.Framebuffer.Basic
/-!
# Pictures

A picture is what a framebuffer shows: straight RGBA pixels, row by row from the top,
whatever the format and the row order were. It is what is exported and written to files.
-/

namespace Raster

/-- Pixels in RGBA, row by row from the top. -/
structure Picture where
  width : UInt32
  height : UInt32
  pixels : Array Rgba
  /-- There is exactly one pixel for every place. -/
  size_pixels : pixels.size = width.toNat * height.toNat
  deriving DecidableEq

namespace Picture

/-- The pixel in column `x` of row `y`, if there is one. -/
def pixel? (p : Picture) (x y : Nat) : Option Rgba :=
  if x < p.width.toNat ∧ y < p.height.toNat then p.pixels[y * p.width.toNat + x]? else none

def bytes (p : Picture) : List UInt8 := p.pixels.toList.flatMap Rgba.bytes

/-- A picture has pixels unless one of its sides is zero. -/
def isEmpty (p : Picture) : Bool := p.width == 0 || p.height == 0

/-- A picture can be written to a file only if it has pixels. -/
def toWrite (p : Picture) : Except Error Picture :=
  if p.isEmpty then .error .emptyPicture else .ok p

end Picture

/-- What a framebuffer shows. An exported image has four bytes for each pixel, and a limit that is
left out here: `4 * width * height` may be `maxAllocation` at most. Only a framebuffer of 2⁶¹ bytes
or more exceeds it. -/
def Framebuffer.picture {f : PixelFormat} (fb : Framebuffer f) : Picture where
  width := fb.width
  height := fb.height
  pixels := Array.ofFn fun i : Fin (fb.width.toNat * fb.height.toNat) =>
    have hw : 0 < fb.width.toNat :=
      Nat.pos_of_mul_pos_right (Nat.lt_of_le_of_lt (Nat.zero_le _) i.isLt)
    (fb.pixel (i.val % fb.width.toNat) (i.val / fb.width.toNat) (Nat.mod_lt _ hw)
      (Nat.div_lt_of_lt_mul i.isLt)).rgba
  size_pixels := by simp

end Raster
