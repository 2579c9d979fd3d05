import Raster.Buffer
import Raster.Geometry
/-!
# Framebuffers

A framebuffer owns the bytes of a picture of one format. Its geometry says where in them
a pixel lies.

The bytes are exactly as many as the geometry asks for (`size_bytes`), and their number
is a 64-bit number (`size_lt`). Both are fields, so every framebuffer has them, however
it was made and whatever was drawn into it.
-/

namespace Raster

/-- No allocation is larger than the largest signed address. -/
def maxAllocation : Nat := UInt64.size / 2 - 1

/-- A picture in memory. -/
structure Framebuffer (f : PixelFormat) extends Geometry where
  /-- The pixels, in the order in which they lie in memory. -/
  bytes : Buffer
  /-- There is exactly one place for every pixel. -/
  size_bytes : bytes.size = toGeometry.byteLength f
  /-- Every byte has a 64-bit address. -/
  size_lt : bytes.size < UInt64.size
  deriving DecidableEq

namespace Framebuffer

variable {f : PixelFormat}

/-- A picture of zero bytes. Too large a size is refused if the number of its bytes is not
a 64-bit number, and is a fault if it is one that no allocation can have. -/
def blank (f : PixelFormat) (g : Geometry) : Except Failure (Framebuffer f) :=
  let n := g.byteLength f
  if h : n < UInt64.size then
    if n ≤ maxAllocation then
      .ok { toGeometry := g, bytes := Array.replicate n 0
            size_bytes := by simp [n], size_lt := by simpa using h }
    else .error (.fault (.allocationTooLarge n))
  else .error (.error .sizeOverflow)

/-- A picture of given bytes, which must be as many as the geometry asks for. -/
def ofBytes (f : PixelFormat) (g : Geometry) (bytes : Buffer) : Except Error (Framebuffer f) :=
  let n := g.byteLength f
  if hn : n < UInt64.size then
    if h : bytes.size = n then
      .ok { toGeometry := g, bytes, size_bytes := h, size_lt := by rw [h]; exact hn }
    else .error (.sizeMismatch f g.width g.height n bytes.size)
  else .error .sizeOverflow

/-- The pixel in column `x` of row `y`, if there is one. -/
def pixel? (fb : Framebuffer f) (x y : Nat) : Option (Color f) :=
  if x < fb.width.toNat ∧ y < fb.height.toNat then Buffer.pixel? f fb.bytes (fb.locate x y)
  else none

/-- There is a pixel at every place inside the picture, and only there. -/
theorem isSome_pixel? (fb : Framebuffer f) (x y : Nat) :
    (fb.pixel? x y).isSome ↔ x < fb.width.toNat ∧ y < fb.height.toNat := by
  unfold pixel?
  split
  · rename_i inside
    have small : fb.toGeometry.byteLength f < UInt64.size := fb.size_bytes ▸ fb.size_lt
    have fits := fb.toGeometry.fits_locate f inside.1 inside.2 small
    rw [← fb.size_bytes] at fits
    simpa [inside] using Buffer.isSome_pixel?.mpr fits
  · rename_i outside
    simp [outside]

/-- The pixel at a place inside the picture. -/
def pixel (fb : Framebuffer f) (x y : Nat) (hx : x < fb.width.toNat) (hy : y < fb.height.toNat) :
    Color f :=
  (fb.pixel? x y).get ((fb.isSome_pixel? x y).mpr ⟨hx, hy⟩)

/-- A row as a buffer of its own, with a fault if there is none. -/
def rowSlice? (fb : Framebuffer f) (y : UInt32) : Except Fault Buffer :=
  if y < fb.height then
    let start := fb.storageRow y.toNat * fb.pitch f
    fb.bytes.slice? start (start + fb.pitch f)
  else .error (.rowOutside y fb.height)

/-- The bytes of a row, with a fault if there is none. -/
def rowBytes? (fb : Framebuffer f) (y : UInt32) : Except Fault (List UInt8) :=
  (fb.rowSlice? y).map Array.toList

/-- The format, the size and the order of a framebuffer. Its bytes are not shown. -/
def description (fb : Framebuffer f) : Description :=
  .record "Framebuffer" [("format", .quoted f.name), ("width", .nat fb.width.toNat),
    ("height", .nat fb.height.toNat), ("order", fb.order.description)] true

end Framebuffer

end Raster
