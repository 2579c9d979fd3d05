import Raster.Operation.Span
import Raster.Proofs.Cells
/-!
# Spans as changes of colors

What the drawing of spans does, said on the colors of the buffer (`Buffer.mapCells`). To
draw one pixel is to change the color in one place (`put_eq_mapCells`), whatever the
operation; a loop of such changes is one change, by `sweep_eq_mapCells`; and so a fill and a
copy that run forward inside their buffers change a range of places, each by
`Operation.result` (`fillPixels_forward`, `copyPixels_forward`). A copy inside one buffer
reads what it has already written, and stays a sequence of single changes
(`copyPixelsWithin_forward`).

None of them faults.
-/

namespace Raster

variable {f s : PixelFormat}

/-! ### The place of a location -/

namespace Location

/-- The place that a location addresses when all places are of format `f`. It is the index
itself, unless the offset of its bytes wraps around. -/
def cell (l : Location) (f : PixelFormat) : Nat := l.offset f / f.bytesPerPixel

/-- Where in memory a pixel starts is known up to whole turns of the address space. -/
theorem offset_eq_mod (l : Location) (f : PixelFormat) :
    l.offset f = l.index.toNat * f.bytesPerPixel % UInt64.size := by
  cases f <;> simp [offset, bytesIn, byteRange]

/-- Wrapped around or not, the bytes of a pixel start at a multiple of their number. -/
theorem offset_eq (l : Location) (f : PixelFormat) :
    l.offset f = l.cell f * f.bytesPerPixel := by
  have whole : f.bytesPerPixel ∣ l.offset f := by
    rw [offset_eq_mod]
    exact (Nat.dvd_mod_iff (by cases f <;> decide)).mpr (Nat.dvd_mul_left ..)
  exact (Nat.div_mul_cancel whole).symm

/-- A location that fits has a color in its place. -/
theorem isSome_cell?_iff_fits {l : Location} {b : Buffer} (small : b.size < UInt64.size) :
    (Buffer.cell? f b (l.cell f)).isSome ↔ l.Fits f b.size := by
  rw [Buffer.isSome_cell?, fits_iff, offset_eq, Nat.succ_mul]
  omega

theorem forward_advance (i j : Nat) :
    (forward (UInt64.ofNat i)).advance j = forward (UInt64.ofNat (i + j)) := by
  have one : (1 : Int64).toUInt64 = 1 := rfl
  simp only [forward, advance, one, UInt64.one_mul, UInt64.ofNat_add]

/-- The place of a forward location is its index, if its bytes have 64-bit addresses. -/
theorem cell_forward {i : Nat} (small : i * f.bytesPerPixel < UInt64.size) :
    (forward (UInt64.ofNat i)).cell f = i := by
  have pos := f.bytesPerPixel_pos
  have index : i < UInt64.size := Nat.lt_of_le_of_lt (Nat.le_mul_of_pos_right _ pos) small
  have width : (UInt64.ofNat f.bytesPerPixel).toNat = f.bytesPerPixel := by cases f <;> rfl
  rw [cell, offset, bytesIn, byteRange]
  simp only [forward, UInt64.toNat_mul, UInt64.toNat_ofNat', width, Nat.mod_eq_of_lt index,
    Nat.mod_eq_of_lt small]
  exact Nat.mul_div_cancel _ pos

/-- A forward location whose place is inside a buffer with 64-bit addresses fits it. -/
theorem forward_fits {b : Buffer} {i : Nat} (inside : (i + 1) * f.bytesPerPixel ≤ b.size)
    (small : b.size < UInt64.size) :
    (forward (UInt64.ofNat i)).Fits f b.size ∧ (forward (UInt64.ofNat i)).cell f = i := by
  have address : i * f.bytesPerPixel < UInt64.size := by
    rw [Nat.succ_mul] at inside
    omega
  have place := cell_forward address
  refine ⟨?_, place⟩
  rw [← isSome_cell?_iff_fits small, place]
  exact (Buffer.isSome_cell? f b i).mpr inside

end Location

namespace Buffer

/-- A pixel is the color in the place of its location. -/
theorem pixel?_eq_cell? {b : Buffer} {l : Location} (fits : l.Fits f b.size) :
    pixel? f b l = cell? f b (l.cell f) := by
  rw [pixel?, if_pos fits, cell?, Location.offset_eq]

end Buffer

/-! ### Drawing -/

namespace Operation

open Buffer

/-- To draw one pixel is to change the color in its place. -/
theorem put_eq_mapCells (op : Operation f s) {l : Location} (c : Color s) {b : Buffer}
    (fits : l.Fits f b.size) :
    op.put l c b = .finished (mapCells (inPlace (l.cell f) fun d => op.result d c) b) := by
  cases skipped : op.skips c with
  | true =>
      -- Nothing is written, and the result of a skipped source is the color that is there.
      have same : mapCells (inPlace (l.cell f) fun d => op.result d c) b = b := by
        rw [← mapCells_id (f := f) b, mapCells_mapCells]
        refine mapCells_congr ?_
        intro i d _
        simp only [inPlace, result_of_skips skipped, ite_self]
      rw [put_of_skips skipped, same]
  | false =>
      obtain ⟨old, hold⟩ := Option.isSome_iff_exists.mp (isSome_pixel?.mpr fits)
      have there : cell? f b (l.cell f) = some old := by rw [← pixel?_eq_cell? fits, hold]
      -- The color read before the write is the one that the change finds in the place.
      have written : mapCells (inPlace (l.cell f) fun _ => op.combine old c) b =
          mapCells (inPlace (l.cell f) fun d => op.result d c) b := by
        refine mapCells_congr ?_
        intro i d hd
        by_cases hi : i = l.cell f
        · subst hi
          obtain rfl : old = d := Option.some.inj (there.symm.trans hd)
          rw [inPlace_self, inPlace_self, result_of_not_skips skipped]
        · rw [inPlace_of_ne hi, inPlace_of_ne hi]
      rw [put, skipped, hold]
      simp only [Bool.false_eq_true, if_false, combine?_eq_ok]
      rw [writePixel, if_pos fits, Location.offset_eq, store_eq_mapCells _ (by rw [there]; rfl),
        written]

/-- The same at a forward location inside a buffer with 64-bit addresses. -/
theorem put_forward (op : Operation f s) {i : Nat} (c : Color s) {b : Buffer}
    (inside : (i + 1) * f.bytesPerPixel ≤ b.size) (small : b.size < UInt64.size) :
    op.put (.forward (UInt64.ofNat i)) c b =
      .finished (mapCells (inPlace i fun d => op.result d c) b) := by
  obtain ⟨fits, place⟩ := Location.forward_fits inside small
  rw [put_eq_mapCells op c fits, place]

/-- To draw from a source pixel is to draw its color. -/
theorem putFrom_forward (op : Operation f s) {i k : Nat} {b src : Buffer}
    (inside : (i + 1) * f.bytesPerPixel ≤ b.size) (small : b.size < UInt64.size)
    (insideSrc : (k + 1) * s.bytesPerPixel ≤ src.size) (smallSrc : src.size < UInt64.size) :
    op.putFrom src (.forward (UInt64.ofNat k)) (.forward (UInt64.ofNat i)) b =
      .finished (mapCells (inPlace i fun d => op.result d (src.color s k)) b) := by
  obtain ⟨fits, place⟩ := Location.forward_fits insideSrc smallSrc
  rw [putFrom, pixel?_eq_cell? fits, place, cell?_eq_color insideSrc]
  exact put_forward op _ inside small

/-- Places in front of one that is inside a buffer are inside it. -/
theorem place_inside {f : PixelFormat} {i j n size : Nat} (hj : j < n)
    (inside : (i + n) * f.bytesPerPixel ≤ size) : (i + j + 1) * f.bytesPerPixel ≤ size :=
  Nat.le_trans (Nat.mul_le_mul_right _ (by omega)) inside

/-- A fill changes every color of its range toward the one color. -/
theorem fillPixels_forward (op : Operation f s) {i n : Nat} (c : Color s) {b : Buffer}
    (inside : (i + n) * f.bytesPerPixel ≤ b.size) (small : b.size < UInt64.size) :
    op.fillPixels b (.forward (UInt64.ofNat i)) n c =
      .finished (mapCells (inRange i n fun _ d => op.result d c) b) := by
  rw [fillPixels_eq_sweep]
  refine sweep_inPlace ?_
  intro j hj b' size
  rw [Location.forward_advance]
  exact put_forward op c (by rw [size]; exact place_inside hj inside) (by rw [size]; exact small)

/-- A copy changes every color of its range toward the color in the same place of the range
it is drawn from. -/
theorem copyPixels_forward (op : Operation f s) {i k n : Nat} {b src : Buffer}
    (inside : (i + n) * f.bytesPerPixel ≤ b.size) (small : b.size < UInt64.size)
    (insideSrc : (k + n) * s.bytesPerPixel ≤ src.size) (smallSrc : src.size < UInt64.size) :
    op.copyPixels b (.forward (UInt64.ofNat i)) src (.forward (UInt64.ofNat k)) n =
      .finished (mapCells (inRange i n fun j d => op.result d (src.color s (k + j))) b) := by
  rw [copyPixels]
  refine sweep_inPlace ?_
  intro j hj b' size
  rw [Location.forward_advance, Location.forward_advance]
  exact putFrom_forward op (by rw [size]; exact place_inside hj inside) (by rw [size]; exact small)
    (place_inside hj insideSrc) smallSrc

/-- The color in one place of a buffer drawn onto the color in another. -/
def drawPlace (op : Operation f f) (k i : Nat) (b : Buffer) : Buffer :=
  mapCells (inPlace i fun d => op.result d (b.color f k)) b

/-- A copy inside one buffer draws one place after the other, each with the color that is
there at that moment. -/
theorem copyPixelsWithin_forward (op : Operation f f) {i k n : Nat} {b : Buffer}
    (inside : (i + n) * f.bytesPerPixel ≤ b.size)
    (insideSrc : (k + n) * f.bytesPerPixel ≤ b.size) (small : b.size < UInt64.size) :
    op.copyPixelsWithin b (.forward (UInt64.ofNat i)) (.forward (UInt64.ofNat k)) n =
      .finished ((List.range n).foldl (fun b j => op.drawPlace (k + j) (i + j) b) b) := by
  have run : ∃ b', op.copyPixelsWithin b (.forward (UInt64.ofNat i)) (.forward (UInt64.ofNat k)) n =
      .finished b' ∧ b'.size = b.size ∧
        b' = (List.range n).foldl (fun b j => op.drawPlace (k + j) (i + j) b) b := by
    refine Outcome.sweep_finishes (P := fun m b' => b'.size = b.size ∧
      b' = (List.range m).foldl (fun b j => op.drawPlace (k + j) (i + j) b) b) ⟨rfl, rfl⟩ ?_
    -- The source is read from what the first `m` steps have left, not from the start.
    rintro m hm b' ⟨size, drawn⟩
    refine ⟨op.drawPlace (k + m) (i + m) b', ?_, ?_, ?_⟩
    · rw [Nat.zero_add, Location.forward_advance, Location.forward_advance]
      exact putFrom_forward op (by rw [size]; exact place_inside hm inside)
        (by rw [size]; exact small) (by rw [size]; exact place_inside hm insideSrc)
        (by rw [size]; exact small)
    · rw [drawPlace, size_mapCells, size]
    · rw [List.range_succ, List.foldl_append, ← drawn]
      rfl
  obtain ⟨b', finished, -, rfl⟩ := run
  exact finished

end Operation

end Raster
