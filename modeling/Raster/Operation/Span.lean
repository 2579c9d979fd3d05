import Raster.Buffer
import Raster.Operation.Basic
/-!
# Drawing spans

Spans of pixels are drawn one pixel after the other. For each place of the span the
source is read first, then the destination is dealt with (`put`), and only then comes
the next place. A place outside its buffer stops the drawing with a fault, and what was
drawn before stays.

Three ways to supply the sources: one color for all places (`fillPixels`), another
buffer (`copyPixels`), or the buffer itself (`copyPixelsWithin`), in which case a source
may be a pixel that the same call has already drawn over.

Nothing here checks rectangles: locations are taken as they are. That no call changes
the size of its buffer is `size_state_fillPixels` and its siblings, and a fill is reasoned
about as the sweep that `fillPixels_eq_sweep` says it is.
-/

namespace Raster.Operation

variable {f s : PixelFormat}

/-- Draw one pixel. A skipped source touches no memory, so its place need not exist. -/
def put (op : Operation f s) (l : Location) (c : Color s) (b : Buffer) : Outcome Fault Buffer :=
  if op.skips c then .finished b
  else
    match Buffer.pixel? f b l with
    | some old =>
        match op.combine? old c with
        | .ok new => Buffer.writePixel b l new
        | .error e => .stopped e b
    | none => .stopped .destinationOutside b

/-- A skipped source is not drawn. -/
theorem put_of_skips {op : Operation f s} {c : Color s} (h : op.skips c = true) (l : Location)
    (b : Buffer) : op.put l c b = .finished b := by
  simp [put, h]

/-- Draw the pixel of `src` at `source`. It is read first, and must exist. -/
@[inline] def putFrom (op : Operation f s) (src : Buffer) (source l : Location) (b : Buffer) :
    Outcome Fault Buffer :=
  match Buffer.pixel? s src source with
  | some c => op.put l c b
  | none => .stopped .sourceOutside b

/-- Draw `c` onto `n` places of the span from `start`. A color that is skipped is drawn
nowhere, and then no place is visited, however long the span. -/
def fillPixels (op : Operation f s) (b : Buffer) (start : Location) (n : Nat) (c : Color s) :
    Outcome Fault Buffer :=
  if op.skips c then .finished b
  else Outcome.sweep (fun i b => op.put (start.advance i) c b) 0 n b

/-- To fill a span is to draw its places one after the other, skipped or not. -/
theorem fillPixels_eq_sweep (op : Operation f s) (b : Buffer) (start : Location) (n : Nat)
    (c : Color s) : op.fillPixels b start n c =
      Outcome.sweep (fun i b => op.put (start.advance i) c b) 0 n b := by
  unfold fillPixels
  split
  · next skipped => exact (Outcome.sweep_eq_finished fun _ b => put_of_skips skipped _ b).symm
  · rfl

/-- Draw `n` pixels of `src`, from `source` on, onto the span from `start`. -/
def copyPixels (op : Operation f s) (b : Buffer) (start : Location) (src : Buffer)
    (source : Location) (n : Nat) : Outcome Fault Buffer :=
  Outcome.sweep (fun i b => op.putFrom src (source.advance i) (start.advance i) b) 0 n b

/-- Draw `n` pixels of the buffer itself, each read just before it is drawn. -/
def copyPixelsWithin (op : Operation f s) (b : Buffer) (start source : Location) (n : Nat) :
    Outcome Fault Buffer :=
  Outcome.sweep (fun i b => op.putFrom b (source.advance i) (start.advance i) b) 0 n b

@[simp] theorem size_state_put (op : Operation f s) (l : Location) (c : Color s) (b : Buffer) :
    (op.put l c b).state.size = b.size := by
  unfold put
  split
  · rfl
  · split
    · split <;> simp
    · rfl

@[simp] theorem size_state_putFrom (op : Operation f s) (src : Buffer) (source l : Location)
    (b : Buffer) : (op.putFrom src source l b).state.size = b.size := by
  unfold putFrom
  split <;> simp

@[simp] theorem size_state_fillPixels (op : Operation f s) (b : Buffer) (start : Location)
    (n : Nat) (c : Color s) : (op.fillPixels b start n c).state.size = b.size := by
  rw [fillPixels_eq_sweep]
  exact Outcome.sweep_invariant (fun b' : Buffer => b'.size = b.size)
    (fun _ _ h => by simp [h]) rfl

@[simp] theorem size_state_copyPixels (op : Operation f s) (b : Buffer) (start : Location)
    (src : Buffer) (source : Location) (n : Nat) :
    (op.copyPixels b start src source n).state.size = b.size :=
  Outcome.sweep_invariant (fun b' : Buffer => b'.size = b.size) (fun _ _ h => by simp [h]) rfl

@[simp] theorem size_state_copyPixelsWithin (op : Operation f s) (b : Buffer)
    (start source : Location) (n : Nat) :
    (op.copyPixelsWithin b start source n).state.size = b.size :=
  Outcome.sweep_invariant (fun b' : Buffer => b'.size = b.size) (fun _ _ h => by simp [h]) rfl

end Raster.Operation
