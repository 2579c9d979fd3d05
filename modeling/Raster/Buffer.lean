import Raster.Color.Basic
import Raster.Location
import Raster.Schedule
/-!
# Byte buffers

A buffer is a row of bytes that pixels of any format are read from and written to.
Nothing in it says what format it holds; that comes with each access.

`store` puts bytes at an offset. Two lemmas say all about it: a stored byte is read back
(`getElem?_store_of_mem`), and every other byte is as before (`getElem?_store_of_not_mem`).
Access to pixels goes through locations, and a location that does not fit is a fault and
changes nothing.

Work can be confined to a stretch of the buffer, which it then sees as a buffer of its own
(`onSlice`), and to pieces of equal length that a buffer is cut into, one after the other
(`eachPiece`) or by turns (`sharePieces`). Each piece is a slice, and work on a slice keeps the
number of bytes (`size_state_onSlice`).
-/

namespace Raster

/-- Bytes in memory. -/
abbrev Buffer := Array UInt8

namespace Buffer

/-- Put `ys` at `offset`; bytes that would fall beyond the end are dropped. -/
def store (b : Buffer) (offset : Nat) : List UInt8 → Buffer
  | [] => b
  | y :: ys => store (b.setIfInBounds offset y) (offset + 1) ys

@[simp] theorem size_store (b : Buffer) (offset : Nat) (ys : List UInt8) :
    (store b offset ys).size = b.size := by
  induction ys generalizing b offset with
  | nil => rfl
  | cons y ys ih => simp [store, ih]

/-- Bytes outside the stored stretch are as before. -/
theorem getElem?_store_of_not_mem {b : Buffer} {offset j : Nat} {ys : List UInt8}
    (h : j < offset ∨ offset + ys.length ≤ j) : (store b offset ys)[j]? = b[j]? := by
  induction ys generalizing b offset with
  | nil => rfl
  | cons y ys ih =>
      simp only [List.length_cons] at h
      rw [store, ih (by omega)]
      simp only [Array.getElem?_setIfInBounds]
      rw [if_neg (by omega)]

/-- Bytes inside the stored stretch are the stored ones. -/
theorem getElem?_store_of_mem {b : Buffer} {offset j : Nat} {ys : List UInt8}
    (low : offset ≤ j) (high : j < offset + ys.length) (inside : j < b.size) :
    (store b offset ys)[j]? = ys[j - offset]? := by
  induction ys generalizing b offset with
  | nil => simp only [List.length_nil] at high; omega
  | cons y ys ih =>
      rw [store]
      rcases Nat.lt_or_ge offset j with h | h
      · rw [ih (by omega) (by simp only [List.length_cons] at high; omega) (by simpa using inside)]
        rw [show j - offset = (j - (offset + 1)) + 1 by omega]
        simp
      · have heq : offset = j := by omega
        subst heq
        rw [getElem?_store_of_not_mem (by omega)]
        simp [inside]

/-- The color whose bytes start at `offset`. -/
def colorAt? (f : PixelFormat) (b : Buffer) (offset : Nat) : Option (Color f) :=
  Color.ofBytes? f (b.extract offset (offset + f.bytesPerPixel)).toList

/-- The pixel at a location; `none` if it does not lie inside the buffer. -/
def pixel? (f : PixelFormat) (b : Buffer) (l : Location) : Option (Color f) :=
  if l.Fits f b.size then colorAt? f b (l.offset f) else none

/-- Every location inside the buffer has a pixel. -/
theorem isSome_pixel? {f : PixelFormat} {b : Buffer} {l : Location} :
    (pixel? f b l).isSome ↔ l.Fits f b.size := by
  by_cases h : l.Fits f b.size
  · have room := ((l.fits_iff f b.size).mp h).2
    simp only [pixel?, h, ↓reduceIte, colorAt?, Color.isSome_ofBytes?, Array.length_toList,
      Array.size_extract, iff_true]
    omega
  · simp [pixel?, h]

/-- Write a pixel. A location that does not fit is a fault. -/
def writePixel {f : PixelFormat} (b : Buffer) (l : Location) (c : Color f) :
    Outcome Fault Buffer :=
  if l.Fits f b.size then .finished (store b (l.offset f) c.bytes)
  else .stopped .destinationOutside b

@[simp] theorem size_state_writePixel {f : PixelFormat} (b : Buffer) (l : Location)
    (c : Color f) : (writePixel b l c).state.size = b.size := by
  unfold writePixel
  split <;> simp

/-! ### Parts of a buffer -/

/-- The bytes from `start` up to `stop`, with a fault if the buffer ends before. -/
def slice? (b : Buffer) (start stop : Nat) : Except Fault Buffer :=
  if start ≤ stop ∧ stop ≤ b.size then .ok (b.extract start stop) else .error .sliceOutside

/-- Put the bytes of `part` at `start`; bytes that would fall beyond the end are dropped. -/
def overwrite (b : Buffer) (start : Nat) (part : Buffer) : Buffer :=
  part.size.fold (fun i _ b => b.setIfInBounds (start + i) (part.getD i 0)) b

/-- Setting bytes one after the other keeps their number. -/
theorem size_fold_setIfInBounds (b : Buffer) (start : Nat) (value : Nat → UInt8) (n : Nat) :
    (n.fold (fun i _ b => b.setIfInBounds (start + i) (value i)) b).size = b.size := by
  induction n with
  | zero => rfl
  | succ n ih => rw [Nat.fold_succ, Array.size_setIfInBounds, ih]

@[simp] theorem size_overwrite (b : Buffer) (start : Nat) (part : Buffer) :
    (overwrite b start part).size = b.size :=
  size_fold_setIfInBounds b start (part.getD · 0) part.size

/-- Bytes in the overwritten stretch are those of the part, the others are as before. -/
theorem getElem?_overwrite (b : Buffer) (start : Nat) (part : Buffer) (j : Nat) :
    (overwrite b start part)[j]? =
      if start ≤ j ∧ j < start + part.size ∧ j < b.size then some (part.getD (j - start) 0)
      else b[j]? := by
  unfold overwrite
  generalize part.size = n
  induction n with
  | zero =>
      rw [if_neg (by omega)]
      rfl
  | succ n ih =>
      rw [Nat.fold_succ, Array.getElem?_setIfInBounds, ih, size_fold_setIfInBounds]
      by_cases last : start + n = j
      · subst last
        by_cases inside : start + n < b.size
        · simp [inside]
        · simp [inside]
      · rw [if_neg last]
        congr 1
        simp only [eq_iff_iff]
        omega

/-- Work on the bytes from `start` up to `stop` as on a buffer of its own. -/
@[inline] def onSlice (b : Buffer) (start stop : Nat) (work : Buffer → Outcome Fault Buffer) :
    Outcome Fault Buffer :=
  match b.slice? start stop with
  | .ok part => (work part).map id (overwrite b start)
  | .error e => .stopped e b

@[simp] theorem size_state_onSlice (b : Buffer) (start stop : Nat)
    (work : Buffer → Outcome Fault Buffer) : (b.onSlice start stop work).state.size = b.size := by
  unfold onSlice
  split <;> simp

/-- Work on the pieces of `length` bytes that the buffer can be cut into, the first one
first. What is left over at the end is not a piece. -/
def eachPiece (b : Buffer) (length : Nat) (work : Nat → Buffer → Outcome Fault Buffer) :
    Outcome Fault Buffer :=
  if length = 0 then .stopped .emptyPieces b
  else Outcome.sweep (fun i b => b.onSlice (i * length) ((i + 1) * length) (work i)) 0
    (b.size / length) b

/-- Work on the same pieces by turns. The work on a piece is `steps` steps, and the pool says
whose turn it is. -/
def sharePieces (b : Buffer) (length steps : Nat) (pool : Pool)
    (work : Nat → Nat → Buffer → Outcome Fault Buffer) : Outcome Fault Buffer :=
  if length = 0 then .stopped .emptyPieces b
  else (pool (b.size / length) steps).run
    (fun i j b => b.onSlice (i * length) ((i + 1) * length) (work i j)) b

end Buffer

end Raster
