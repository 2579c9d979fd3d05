import Raster.Proofs.Strides
/-!
# Copies inside one buffer

A copy inside one buffer reads each of its sources when its turn comes, and by then a part of the
buffer has been drawn over. What was drawn lies in the places of the span and nowhere else, even
if the copy stops halfway (`getElem?_state_copyPixels`). So a source that none of the places
before it has a byte of is still what it was at the start, and if that is so for all of them
(`Location.ReadInTime`), the copy is the same as one from a snapshot of the buffer
(`copyPixelsWithin_eq_copyPixels`), with any steps and any two formats.

A span that starts at its source or before it and runs forward like it reads in time
(`readInTime_of_le`), and so do spans of a picture that are in different rows, or do not overlap,
or of which the destination is to the left (`readInTime_of_spans`). `copies_as_from_snapshot` says
all of that.
-/

namespace Raster

variable {f s : PixelFormat}

/-! ### What a source may rely on -/

/-- The two stretches have no byte in common. -/
def ByteRange.Disjoint (r r' : ByteRange) : Prop := ∀ k, ¬ (r.Contains k ∧ r'.Contains k)

namespace Location

variable {start source : Location} {b : Buffer} {n : Nat}

/-- When a source is read, none of its bytes has been drawn over: they are not among those of the
places that come before. -/
def ReadInTime (source : Location) (s : PixelFormat) (start : Location) (f : PixelFormat)
    (n : Nat) : Prop :=
  ∀ i < n, ∀ j < i, ((start.advance j).bytesIn f).Disjoint ((source.advance i).bytesIn s)

/-- The first `n` positions of the span, over exact integers, are those of pixels of a buffer of
`size` bytes. -/
def InRange (l : Location) (f : PixelFormat) (n size : Nat) : Prop :=
  ∀ j < n, 0 ≤ l.position j ∧ (l.position j + 1) * f.bytesPerPixel ≤ size

instance (l : Location) (f : PixelFormat) (n size : Nat) : Decidable (l.InRange f n size) :=
  inferInstanceAs (Decidable (∀ j < n, 0 ≤ l.position j ∧
    (l.position j + 1) * f.bytesPerPixel ≤ size))

/-- Within one format it is the places that matter. -/
theorem readInTime_of_cell {size : Nat} (fits : ∀ j < n, (start.advance j).Fits f size)
    (fitsSrc : ∀ i < n, (source.advance i).Fits f size)
    (other : ∀ i < n, ∀ j < i, (start.advance j).cell f ≠ (source.advance i).cell f) :
    source.ReadInTime f start f n := by
  rintro i hi j hj k ⟨drawn, read⟩
  rw [contains_bytesIn_iff (fits j (Nat.lt_trans hj hi))] at drawn
  rw [contains_bytesIn_iff (fitsSrc i hi)] at read
  exact other i hi j hj (drawn.symm.trans read)

/-- A span that runs forward and starts at its source or before it has passed no later source. -/
theorem readInTime_of_le (small : b.size < UInt64.size) (inRange : start.InRange f n b.size)
    (inRangeSrc : source.InRange f n b.size) (step : start.step = 1) (stepSrc : source.step = 1)
    (le : start.index ≤ source.index) : source.ReadInTime f start f n := by
  have one : (1 : Int64).toInt = 1 := rfl
  refine readInTime_of_cell (fun j hj => (cell_of_position small (inRange j hj)).1)
    (fun i hi => (cell_of_position small (inRangeSrc i hi)).1) ?_
  intro i hi j hj same
  have drawn := (cell_of_position small (inRange j (Nat.lt_trans hj hi))).2
  have read := (cell_of_position small (inRangeSrc i hi)).2
  rw [same, read, position, position, step, stepSrc, one] at drawn
  rw [UInt64.le_iff_toNat_le] at le
  omega

end Location

/-! ### What a copy leaves alone -/

namespace Buffer

variable {b b' : Buffer} {l : Location}

/-- What a pixel reads are its bytes. -/
theorem pixel?_eq_of_bytes (size : b.size = b'.size)
    (same : ∀ k, (l.bytesIn f).Contains k → b[k]? = b'[k]?) : pixel? f b l = pixel? f b' l := by
  by_cases fits : l.Fits f b.size
  · have fits' : l.Fits f b'.size := size ▸ fits
    rw [pixel?_eq_cell? fits, pixel?_eq_cell? fits']
    refine cell?_congr ?_
    intro k hk
    refine same _ ((Location.contains_bytesIn_iff fits _).mpr ?_)
    rw [Nat.mul_comm, Nat.mul_add_div f.bytesPerPixel_pos, Nat.div_eq_of_lt hk, Nat.add_zero]
  · rw [pixel?, pixel?, if_neg fits, if_neg (size ▸ fits)]

end Buffer

namespace Operation

open Buffer

variable {b src : Buffer} {start source l : Location} {n k : Nat}

/-- A location that does not fit leaves everything as it is. -/
theorem state_put_of_not_fits (op : Operation f s) (c : Color s) (outside : ¬ l.Fits f b.size) :
    (op.put l c b).state = b := by
  have none : pixel? f b l = none := if_neg outside
  rw [put, none]
  split <;> rfl

/-- To draw one pixel changes none but its own bytes, whether or not there is such a pixel. -/
theorem getElem?_state_put (op : Operation f s) (c : Color s)
    (outside : ¬ (l.bytesIn f).Contains k) : (op.put l c b).state[k]? = b[k]? := by
  by_cases fits : l.Fits f b.size
  · rw [op.put_eq_mapCells c fits, Outcome.state_finished]
    refine getElem?_mapCells_of_same ?_
    intro d
    rw [inPlace_of_ne]
    exact fun same => outside ((Location.contains_bytesIn_iff fits k).mpr same)
  · rw [op.state_put_of_not_fits c fits]

/-- Nor does it from a source pixel. -/
theorem getElem?_state_putFrom (op : Operation f s) (outside : ¬ (l.bytesIn f).Contains k) :
    (op.putFrom src source l b).state[k]? = b[k]? := by
  rw [putFrom]
  cases pixel? s src source with
  | none => rfl
  | some c => exact op.getElem?_state_put c outside

/-- A copy changes no bytes but those of its places, even if it stops halfway. -/
theorem getElem?_state_copyPixels (op : Operation f s)
    (outside : ∀ i < n, ¬ ((start.advance i).bytesIn f).Contains k) :
    (op.copyPixels b start src source n).state[k]? = b[k]? := by
  refine Outcome.sweep_keeps (fun b' : Buffer => b'[k]? = b[k]?) ?_ rfl
  intro i _ hi b' same
  rw [op.getElem?_state_putFrom (outside i (by omega)), same]

/-- If every source is read in time, a copy inside a buffer is one from a snapshot of it. -/
theorem copyPixelsWithin_eq_copyPixels (op : Operation f s)
    (inTime : source.ReadInTime s start f n) :
    op.copyPixelsWithin b start source n = op.copyPixels b start b source n := by
  symm
  refine Outcome.sweep_congr_along ?_
  -- After `i` steps the buffer is `b'`, and the source of the next one is as in `b`.
  intro i hi b' run
  have left : (op.copyPixels b start b source i).state = b' := by
    rw [copyPixels, run, Outcome.state_finished]
  have size : b.size = b'.size := by rw [← left, size_state_copyPixels]
  have unread : pixel? s b (source.advance i) = pixel? s b' (source.advance i) := by
    refine pixel?_eq_of_bytes size ?_
    intro k read
    rw [← left, op.getElem?_state_copyPixels]
    exact fun j hj drawn => inTime i hi j hj k ⟨drawn, read⟩
  rw [Nat.zero_add, putFrom, putFrom, unread]

end Operation

/-! ### Spans of a picture -/

namespace Framebuffer

variable {fb : Framebuffer f} {g : Geometry} {x y sx sy n : UInt32}

/-- Work is known by what it does to the bytes. -/
theorem draw_congr {work work' : Buffer → Outcome Fault Buffer}
    {keeps : ∀ b, (work b).state.size = b.size} {keeps' : ∀ b, (work' b).state.size = b.size}
    (same : work fb.bytes = work' fb.bytes) : fb.draw work keeps = fb.draw work' keeps' := by
  have painted : fb.paint work keeps = fb.paint work' keeps' := by
    refine Outcome.ext (ext_bytes ?_ ?_) ?_
    · rw [toGeometry_state_paint, toGeometry_state_paint]
    · rw [bytes_state_paint, bytes_state_paint, same]
    · rw [cause?_paint, cause?_paint, same]
  rw [draw, draw, painted]

/-- A request that goes on from a span is known by what it does if the span is granted. -/
theorem fromSpan_congr {next next' : Location → Outcome Failure (Framebuffer f)}
    (same : ∀ start, g.span x y n = .ok start → next start = next' start) :
    fb.fromSpan g x y n next = fb.fromSpan g x y n next' := by
  rw [fromSpan, fromSpan, g.spanStart?_eq]
  cases granted : g.span x y n with
  | error e => rfl
  | ok start => exact same start granted

/-- The sources of a span are read in time if they are in another row, or none of them is to the
left of the first place, or the first place is to the right of all of them. -/
theorem readInTime_of_spans {start source : Location} (granted : fb.span x y n = .ok start)
    (grantedSrc : fb.span sx sy n = .ok source)
    (clear : y ≠ sy ∨ x ≤ sx ∨ sx.toNat + n.toNat ≤ x.toNat) :
    source.ReadInTime f start f n.toNat := by
  refine Location.readInTime_of_cell (fun j hj => (span_advance granted hj).2.1)
    (fun i hi => (span_advance grantedSrc hi).2.1) ?_
  intro i hi j hj same
  obtain ⟨⟨column, row⟩, -, drawn⟩ := span_advance granted (Nat.lt_trans hj hi)
  obtain ⟨⟨columnSrc, rowSrc⟩, -, read⟩ := span_advance grantedSrc hi
  rw [drawn, read, fb.place_inj columnSrc rowSrc column row] at same
  obtain ⟨sameColumn, sameRow⟩ := same
  rcases clear with apart | behind | before
  · exact apart (UInt32.toNat_inj.mp sameRow)
  · rw [UInt32.le_iff_toNat_le] at behind
    omega
  · omega

/-- Then the request comes to the same as one with a snapshot of the framebuffer as its source. -/
theorem copySpanWithin_eq_copySpan (op : Operation f f)
    (clear : y ≠ sy ∨ x ≤ sx ∨ sx.toNat + n.toNat ≤ x.toNat) :
    fb.copySpanWithin op x y sx sy n = fb.copySpan op x y fb sx sy n := by
  refine fromSpan_congr ?_
  intro start granted
  refine fromSpan_congr ?_
  intro source grantedSrc
  exact draw_congr
    (op.copyPixelsWithin_eq_copyPixels (readInTime_of_spans granted grantedSrc clear))

end Framebuffer

/-- If no source has a byte in common with a place that comes before it, a copy inside a buffer
leaves what a copy from a snapshot of the buffer leaves, and stops if that does. It is so for
spans of one format in range that run forward, if they start at their sources or before them, and
so for spans of a picture in different rows, or with the destination to the left of the source, or
without a column in common. -/
theorem copies_as_from_snapshot (op : Operation f s) (own : Operation f f) (b : Buffer)
    (start source : Location) (n : Nat) (fb : Framebuffer f) (x y sx sy m : UInt32) :
    (source.ReadInTime s start f n →
      op.copyPixelsWithin b start source n = op.copyPixels b start b source n) ∧
    (b.size < UInt64.size → start.InRange f n b.size → source.InRange f n b.size →
      start.step = 1 → source.step = 1 → start.index ≤ source.index →
      source.ReadInTime f start f n) ∧
    (y ≠ sy ∨ x ≤ sx ∨ sx.toNat + m.toNat ≤ x.toNat →
      (∀ start source, fb.span x y m = .ok start → fb.span sx sy m = .ok source →
        source.ReadInTime f start f m.toNat) ∧
      fb.copySpanWithin own x y sx sy m = fb.copySpan own x y fb sx sy m) :=
  ⟨op.copyPixelsWithin_eq_copyPixels, Location.readInTime_of_le,
    fun clear => ⟨fun _ _ granted grantedSrc => Framebuffer.readInTime_of_spans granted grantedSrc
      clear, Framebuffer.copySpanWithin_eq_copySpan own clear⟩⟩

/-- Ink on the first two places of a buffer, with the second of them as its coverage, which is gone
only when it is not needed any more; the last two places moved to the first two; and the end of a
row moved to its beginning in a picture stored bottom up. -/
theorem copies_as_from_snapshot_overlap :
    let b : Buffer := #[1, 2, 128, 255, 5, 6]
    let ink : Operation .rgb565 .gray8 := .ink (.rgb565 0xFFFF)
    let blend : Operation .rgb565 .rgb565 := .blend 128
    let first : Location := .forward 0
    let fb : Framebuffer .rgb565 :=
      ⟨⟨3, 2, .bottomUp⟩, #[1, 2, 3, 4, 5, 6, 7, 8, 9, 10, 11, 12], rfl, by decide⟩
    ink.copyPixelsWithin b first (.forward 2) 2 = ink.copyPixels b first b (.forward 2) 2 ∧
    Location.ReadInTime (.forward 1) .rgb565 first .rgb565 2 ∧
    fb.copySpanWithin blend 0 1 1 1 2 = fb.copySpan blend 0 1 fb 1 1 2 := by
  intro b ink blend first fb
  have inked := (copies_as_from_snapshot ink blend b first (.forward 2) 2 fb 0 1 1 1 2).1
  have moved := (copies_as_from_snapshot blend blend b first (.forward 1) 2 fb 0 1 1 1 2).2
  refine ⟨inked ?_, moved.1 (by decide) (by decide) (by decide) rfl rfl (by decide),
    (moved.2 (.inr (.inl (by decide)))).2⟩
  -- Only the last coverage is read after a place was drawn, and that place is the first one.
  intro i hi j hj k common
  obtain ⟨rfl, rfl⟩ : i = 1 ∧ j = 0 := by omega
  obtain ⟨⟨-, below⟩, above, -⟩ := common
  have stop : ((first.advance 0).bytesIn .rgb565).stop.toNat = 2 := rfl
  have here : (((Location.forward 2).advance 1).bytesIn .gray8).start.toNat = 3 := rfl
  omega

end Raster
