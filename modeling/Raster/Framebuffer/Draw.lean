import Raster.Framebuffer.Basic
import Raster.Operation.Span
import Raster.Threading
/-!
# Drawing into framebuffers

Requests to draw give a rectangle, and the rectangle is checked before the first pixel
is touched. A refused request leaves the framebuffer as it is.

Design points:

* `paint` runs any size-keeping work on the bytes and puts the framebuffer together
  again; its three lemmas are all that later arguments need to know about it;
* the rows of a band lie next to each other in memory. They are taken out as one slice, cut
  into rows, and each row is drawn as a span whose locations count from the start of the row
  (`fillRow`, `copyRow`); `StorageRows.sourceRow?` says which row of the source goes with
  which row in memory;
* rows can be shared out. Then each pixel of a row is one step (`fillPlace`, `copyPlace`), the
  steps of a row being its own from left to right (`fillRow_eq_sweep`, `copyRow_eq_sweep`), and
  a pool says in which order the steps of all rows are made (`fillRowsOn`, `copyRowsOn`).
  The result is that of one row after the other, which is what `fillRows` and `copyRows`
  do, whatever the setting;
* `fillAt` and `copyAt` take locations instead of rectangles. Nothing is checked, and a
  location that runs out of the bytes is a fault.
-/

namespace Raster.Framebuffer

variable {f s : PixelFormat}

/-! ### Working on the bytes -/

/-- Run `work` on the bytes. It must keep their number. -/
def paint (fb : Framebuffer f) (work : Buffer → Outcome Fault Buffer)
    (keeps : ∀ b, (work b).state.size = b.size) : Outcome Fault (Framebuffer f) :=
  match fb with
  | ⟨g, bytes, size_bytes, size_lt⟩ =>
      match h : work bytes with
      | .finished b =>
          have same : b.size = bytes.size := by have := keeps bytes; rwa [h] at this
          .finished ⟨g, b, same ▸ size_bytes, same ▸ size_lt⟩
      | .stopped e b =>
          have same : b.size = bytes.size := by have := keeps bytes; rwa [h] at this
          .stopped e ⟨g, b, same ▸ size_bytes, same ▸ size_lt⟩

@[simp] theorem bytes_state_paint (fb : Framebuffer f) (work : Buffer → Outcome Fault Buffer)
    (keeps : ∀ b, (work b).state.size = b.size) :
    (fb.paint work keeps).state.bytes = (work fb.bytes).state := by
  cases fb
  dsimp only [paint]
  split <;> simp_all

@[simp] theorem cause?_paint (fb : Framebuffer f) (work : Buffer → Outcome Fault Buffer)
    (keeps : ∀ b, (work b).state.size = b.size) :
    (fb.paint work keeps).cause? = (work fb.bytes).cause? := by
  cases fb
  dsimp only [paint]
  split <;> simp_all

@[simp] theorem toGeometry_state_paint (fb : Framebuffer f)
    (work : Buffer → Outcome Fault Buffer) (keeps : ∀ b, (work b).state.size = b.size) :
    (fb.paint work keeps).state.toGeometry = fb.toGeometry := by
  cases fb
  dsimp only [paint]
  split <;> rfl

/-- Work on the bytes as part of a request, where a stop is a fault. -/
def draw (fb : Framebuffer f) (work : Buffer → Outcome Fault Buffer)
    (keeps : ∀ b, (work b).state.size = b.size) : Outcome Failure (Framebuffer f) :=
  (fb.paint work keeps).map Failure.fault id

@[simp] theorem toGeometry_state_draw (fb : Framebuffer f) (work : Buffer → Outcome Fault Buffer)
    (keeps : ∀ b, (work b).state.size = b.size) :
    (fb.draw work keeps).state.toGeometry = fb.toGeometry := by
  simp [draw]

/-- A refused request. -/
def refuse (fb : Framebuffer f) (e : Error) : Outcome Failure (Framebuffer f) :=
  .stopped (.error e) fb

def fillRowBytes (fb : Framebuffer f) (y : UInt32) (value : UInt8) :
    Outcome Failure (Framebuffer f) :=
  if y < fb.height then
    let offset := fb.storageRow y.toNat * fb.pitch f
    let values := List.replicate (fb.pitch f) value
    fb.draw (fun b => .finished (b.store offset values)) fun b => by simp
  else .stopped (.fault (.rowOutside y fb.height)) fb

/-! ### Drawing at locations -/

/-- Draw `c` onto `n` places from a location on. -/
def fillAt (fb : Framebuffer f) (op : Operation f s) (start : Location) (n : Nat)
    (c : Color s) : Outcome Failure (Framebuffer f) :=
  fb.draw (fun b => op.fillPixels b start n c) fun b => by simp

/-- Draw `n` pixels of `src` onto the places from a location on. -/
def copyAt (fb : Framebuffer f) (op : Operation f s) (start : Location) (src : Framebuffer s)
    (source : Location) (n : Nat) : Outcome Failure (Framebuffer f) :=
  fb.draw (fun b => op.copyPixels b start src.bytes source n) fun b => by simp

/-- Draw `n` of its own pixels onto the places from a location on. -/
def copyWithinAt (fb : Framebuffer f) (op : Operation f f) (start source : Location) (n : Nat) :
    Outcome Failure (Framebuffer f) :=
  fb.draw (fun b => op.copyPixelsWithin b start source n) fun b => by simp

/-! ### Drawing spans -/

/-- Go on from the start of a span, unless the span is refused. -/
@[inline] def fromSpan (fb : Framebuffer f) (g : Geometry) (x y n : UInt32)
    (next : Location → Outcome Failure (Framebuffer f)) : Outcome Failure (Framebuffer f) :=
  match g.spanStart? x y n with
  | .error e => .stopped e fb
  | .ok start => next start

/-- Draw `c` onto `n` pixels from `(x, y)` to the right. -/
def fillSpan (fb : Framebuffer f) (op : Operation f s) (x y n : UInt32) (c : Color s) :
    Outcome Failure (Framebuffer f) :=
  fb.fromSpan fb.toGeometry x y n fun start => fb.fillAt op start n.toNat c

/-- Draw `n` pixels of `src` from `(sx, sy)` to the right onto those from `(x, y)` to the
right. -/
def copySpan (fb : Framebuffer f) (op : Operation f s) (x y : UInt32) (src : Framebuffer s)
    (sx sy n : UInt32) : Outcome Failure (Framebuffer f) :=
  fb.fromSpan fb.toGeometry x y n fun start =>
    fb.fromSpan src.toGeometry sx sy n fun source => fb.copyAt op start src source n.toNat

/-- Draw `n` pixels from `(sx, sy)` to the right onto those from `(x, y)` to the right, in
this order. Where the two overlap, a pixel that has been drawn over is drawn on. -/
def copySpanWithin (fb : Framebuffer f) (op : Operation f f) (x y sx sy n : UInt32) :
    Outcome Failure (Framebuffer f) :=
  fb.fromSpan fb.toGeometry x y n fun start =>
    fb.fromSpan fb.toGeometry sx sy n fun source => fb.copyWithinAt op start source n.toNat

/-! ### The rows of a band -/

/-- Work on the rows of a band, which lie next to each other in memory, as on a buffer of
their own. A band without pixels is left alone. -/
@[inline] def onBand (g : Geometry) (f : PixelFormat) (band : Band)
    (work : StorageRows → Buffer → Outcome Fault Buffer) (b : Buffer) : Outcome Fault Buffer :=
  if band.isEmpty then .finished b
  else
    match g.storageRows? band with
    | .error e => .stopped e b
    | .ok rows => b.onSlice (rows.first * g.pitch f) (rows.last * g.pitch f) (work rows)

@[simp] theorem size_state_onBand (g : Geometry) (f : PixelFormat) (band : Band)
    (work : StorageRows → Buffer → Outcome Fault Buffer) (b : Buffer) :
    (onBand g f band work b).state.size = b.size := by
  unfold onBand
  split
  · rfl
  · split <;> simp

/-- Draw `c` onto the pixels of a band in one row. -/
def fillRow (op : Operation f s) (band : Band) (c : Color s) (row : Buffer) :
    Outcome Fault Buffer :=
  op.fillPixels row (.forward band.x.toUInt64) band.width.toNat c

/-- Draw `c` onto the `j`-th of these pixels. -/
def fillPlace (op : Operation f s) (band : Band) (c : Color s) (j : Nat) (row : Buffer) :
    Outcome Fault Buffer :=
  op.put ((Location.forward band.x.toUInt64).advance j) c row

/-- The bytes of the source row for the `i`-th row in memory. -/
def sourceSlice? (src : Framebuffer s) (rows : StorageRows) (band : Band) (sy : UInt32)
    (i : Nat) : Except Fault Buffer := do
  src.rowSlice? (← rows.sourceRow? sy band.height i)

/-- Draw pixels of `src` from column `sx` on onto the pixels of a band in one row. -/
def copyRow (op : Operation f s) (band : Band) (src : Framebuffer s) (sx sy : UInt32)
    (rows : StorageRows) (i : Nat) (row : Buffer) : Outcome Fault Buffer :=
  match sourceSlice? src rows band sy i with
  | .error e => .stopped e row
  | .ok source =>
      op.copyPixels row (.forward band.x.toUInt64) source (.forward sx.toUInt64) band.width.toNat

/-- Draw one of them, onto the `j`-th of these pixels. -/
def copyPlace (op : Operation f s) (band : Band) (src : Framebuffer s) (sx sy : UInt32)
    (rows : StorageRows) (i j : Nat) (row : Buffer) : Outcome Fault Buffer :=
  match sourceSlice? src rows band sy i with
  | .error e => .stopped e row
  | .ok source =>
      op.putFrom source ((Location.forward sx.toUInt64).advance j)
        ((Location.forward band.x.toUInt64).advance j) row

/-- To fill a row is to fill its places from left to right. -/
theorem fillRow_eq_sweep (op : Operation f s) (band : Band) (c : Color s) (row : Buffer) :
    fillRow op band c row = Outcome.sweep (fillPlace op band c) 0 band.width.toNat row :=
  op.fillPixels_eq_sweep ..

/-- To copy a row is to copy its places from left to right. -/
theorem copyRow_eq_sweep (op : Operation f s) {band : Band} {src : Framebuffer s}
    {sx sy : UInt32} {rows : StorageRows} {i : Nat} {source : Buffer}
    (slice : sourceSlice? src rows band sy i = .ok source) (row : Buffer) :
    copyRow op band src sx sy rows i row =
      Outcome.sweep (copyPlace op band src sx sy rows i) 0 band.width.toNat row := by
  rw [copyRow, slice]
  refine Outcome.sweep_congr ?_
  intro j b _ _
  rw [copyPlace, slice]

/-! ### Drawing bands -/

/-- What must hold before a band is filled. -/
def checkFill (g : Geometry) (band : Band) (threading : Threading) : Except Error Unit := do
  g.checkBand .fill band
  threading.check

/-- What must hold before a band is copied. -/
def checkCopy (g source : Geometry) (band : Band) (sx sy : UInt32) (threading : Threading) :
    Except Error Unit := do
  g.checkBand .copyDestination band
  source.checkBand .copySource (band.movedTo sx sy)
  threading.check

/-- Draw `c` onto every pixel of a band, row after row. -/
def fillRows (fb : Framebuffer f) (op : Operation f s) (band : Band) (c : Color s)
    (threading : Threading) : Outcome Failure (Framebuffer f) :=
  match checkFill fb.toGeometry band threading with
  | .error e => fb.refuse e
  | .ok () =>
      fb.draw (onBand fb.toGeometry f band fun _ part =>
        part.eachPiece (fb.pitch f) fun _ row => fillRow op band c row) fun b => by simp

/-- Draw the band of `src` whose corner is `(sx, sy)` onto a band of the same size, row
after row. -/
def copyRows (fb : Framebuffer f) (op : Operation f s) (band : Band) (src : Framebuffer s)
    (sx sy : UInt32) (threading : Threading) : Outcome Failure (Framebuffer f) :=
  match checkCopy fb.toGeometry src.toGeometry band sx sy threading with
  | .error e => fb.refuse e
  | .ok () =>
      fb.draw (onBand fb.toGeometry f band fun rows part =>
        part.eachPiece (fb.pitch f) (copyRow op band src sx sy rows)) fun b => by simp

/-! ### Sharing rows out -/

/-- Draw `c` onto every pixel of a band, with the rows given to a pool if the setting asks
for it. -/
def fillRowsOn (pool : Pool) (fb : Framebuffer f) (op : Operation f s) (band : Band)
    (c : Color s) (threading : Threading) : Outcome Failure (Framebuffer f) :=
  if threading.parallel then
    match checkFill fb.toGeometry band threading with
    | .error e => fb.refuse e
    | .ok () =>
        fb.draw (onBand fb.toGeometry f band fun _ part =>
          part.sharePieces (fb.pitch f) band.width.toNat pool fun _ j row =>
            fillPlace op band c j row) fun b => by simp
  else fb.fillRows op band c threading

/-- Draw a band of `src` onto a band of the same size, with the rows given to a pool if the
setting asks for it. -/
def copyRowsOn (pool : Pool) (fb : Framebuffer f) (op : Operation f s) (band : Band)
    (src : Framebuffer s) (sx sy : UInt32) (threading : Threading) :
    Outcome Failure (Framebuffer f) :=
  if threading.parallel then
    match checkCopy fb.toGeometry src.toGeometry band sx sy threading with
    | .error e => fb.refuse e
    | .ok () =>
        fb.draw (onBand fb.toGeometry f band fun rows part =>
          part.sharePieces (fb.pitch f) band.width.toNat pool
            (copyPlace op band src sx sy rows)) fun b => by simp
  else fb.copyRows op band src sx sy threading

end Raster.Framebuffer
