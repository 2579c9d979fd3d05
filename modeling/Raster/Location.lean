import Raster.PixelFormat
/-!
# Locations

A location addresses a pixel in a buffer that is not part of it: the index of the pixel
and the signed distance, in pixels, to the next pixel of a span. A forward row has step
1, a reversed row step -1, and a column of a buffer stored row by row has the width as
its step.

All address arithmetic is modulo 2⁶⁴, on indices as well as on bytes. A span that runs
before the start of its buffer therefore continues at the far end of the address space,
and an index so large that its byte offset does not fit wraps around as well.
-/

namespace Raster

/-- The address of a pixel, together with the step of the span it belongs to. -/
structure Location where
  /-- Index of the pixel, counted in pixels. -/
  index : UInt64
  /-- Signed distance to the next pixel of a span. -/
  step : Int64
  deriving DecidableEq

/-- A stretch of byte addresses, `start` included and `stop` excluded. -/
structure ByteRange where
  start : UInt64
  stop : UInt64
  deriving DecidableEq

/-- The stretch runs forward and ends within the first `size` bytes. -/
def ByteRange.Within (r : ByteRange) (size : Nat) : Prop :=
  r.start ≤ r.stop ∧ r.stop.toNat ≤ size

instance (r : ByteRange) (size : Nat) : Decidable (r.Within size) :=
  inferInstanceAs (Decidable (r.start ≤ r.stop ∧ r.stop.toNat ≤ size))

namespace Location

/-- The pixel at `index`, in a span that walks toward higher addresses. -/
def forward (index : UInt64) : Location := ⟨index, 1⟩

/-- The pixel at `index`, in a span that walks toward lower addresses. -/
def reversed (index : UInt64) : Location := ⟨index, -1⟩

instance : Inhabited Location := ⟨forward 0⟩

/-- The location `n` places further along the span. -/
def advance (l : Location) (n : Nat) : Location :=
  { l with index := l.index + l.step.toUInt64 * UInt64.ofNat n }

@[simp] theorem step_advance (l : Location) (n : Nat) : (l.advance n).step = l.step := rfl

theorem index_advance (l : Location) (n : Nat) :
    (l.advance n).index = l.index + l.step.toUInt64 * UInt64.ofNat n := rfl

/-- The distance may as well be taken as a signed number, and its product with the step as one that
has wrapped around. -/
theorem index_advance_signed (l : Location) (n : Nat) :
    (l.advance n).index = l.index + (l.step * Int64.ofNat n).toUInt64 := by
  rw [index_advance, Int64.toUInt64_mul, Int64.toUInt64_ofNat']

/-- Going on from a place further along is going there directly. -/
theorem advance_advance (l : Location) (m n : Nat) :
    (l.advance m).advance n = l.advance (m + n) := by
  simp [advance, UInt64.ofNat_add, UInt64.mul_add, UInt64.add_assoc]

/-- The first `n` places of the span, in span order. -/
def span (l : Location) (n : Nat) : List Location := (List.range n).map l.advance

/-- The bytes of the pixel when each pixel takes `width` bytes. -/
def byteRange (l : Location) (width : UInt64) : ByteRange :=
  let start := l.index * width
  ⟨start, start + width⟩

/-- The bytes of the pixel in format `f`. -/
def bytesIn (l : Location) (f : PixelFormat) : ByteRange :=
  l.byteRange (UInt64.ofNat f.bytesPerPixel)

/-- The pixel lies inside a buffer of `size` bytes. -/
def Fits (l : Location) (f : PixelFormat) (size : Nat) : Prop := (l.bytesIn f).Within size

instance (l : Location) (f : PixelFormat) (size : Nat) : Decidable (l.Fits f size) :=
  inferInstanceAs (Decidable ((l.bytesIn f).Within size))

/-- Where in the buffer the pixel starts. -/
def offset (l : Location) (f : PixelFormat) : Nat := (l.bytesIn f).start.toNat

/-- A pixel fits exactly when its last byte does, with no wrap in between. -/
theorem fits_iff (l : Location) (f : PixelFormat) (size : Nat) :
    l.Fits f size ↔
      l.offset f + f.bytesPerPixel < UInt64.size ∧ l.offset f + f.bytesPerPixel ≤ size := by
  have hs := (l.bytesIn f).start.toNat_lt
  have stop : (l.bytesIn f).stop = (l.bytesIn f).start + UInt64.ofNat f.bytesPerPixel := rfl
  have width : (UInt64.ofNat f.bytesPerPixel).toNat = f.bytesPerPixel := by cases f <;> rfl
  have pos := f.bytesPerPixel_pos
  have le := f.bytesPerPixel_le
  simp only [Fits, ByteRange.Within, offset, stop, UInt64.le_iff_toNat_le, UInt64.toNat_add, width,
    UInt64.size]
  omega

/-- A pixel that fits ends where its bytes do. -/
theorem Fits.toNat_stop {l : Location} {f : PixelFormat} {size : Nat} (h : l.Fits f size) :
    (l.bytesIn f).stop.toNat = l.offset f + f.bytesPerPixel := by
  have small := ((l.fits_iff f size).mp h).1
  have width : (UInt64.ofNat f.bytesPerPixel).toNat = f.bytesPerPixel := by cases f <;> rfl
  have stop : (l.bytesIn f).stop = (l.bytesIn f).start + UInt64.ofNat f.bytesPerPixel := rfl
  rw [stop, UInt64.toNat_add, width]
  exact Nat.mod_eq_of_lt small

end Location

end Raster
