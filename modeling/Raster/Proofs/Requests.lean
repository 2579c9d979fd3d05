import Raster.Proofs.Pixels
/-!
# What requests come to

Every request checks first and then draws, and it is one of two things: the error of its
check, with the framebuffer as it was, or a change of the pixels that the request names
(`Framebuffer.answer`). There is one lemma for each kind of request, and they are all that
is needed of them elsewhere:

* `fillSpan_eq`, `copySpan_eq` and `copySpanWithin_eq`;
* `fillRows_eq` and `copyRows_eq`, and `fillRowsOn_eq` and `copyRowsOn_eq` for rows that
  are given to a pool.

No fault is among the answers. From that and from what the checks ask for follows
`requests_settled`: a request is granted exactly if its rectangles lie where they should and
its setting can be honored.
-/

namespace Raster

variable {f s : PixelFormat}

open Buffer

/-! ### Rows of a band -/

namespace Geometry

/-- The `n` pixels from `(x, y)` to the right lie in the picture. -/
def HasSpan (g : Geometry) (x y n : UInt32) : Prop :=
  y.toNat < g.height.toNat ∧ x.toNat + n.toNat ≤ g.width.toNat

instance (g : Geometry) (x y n : UInt32) : Decidable (g.HasSpan x y n) :=
  inferInstanceAs (Decidable (_ ∧ _))

theorem HasSpan.column_lt {g : Geometry} {x y n : UInt32} {i : Nat} (h : g.HasSpan x y n)
    (hi : i < n.toNat) : x.toNat + i < g.width.toNat :=
  Nat.lt_of_lt_of_le (Nat.add_lt_add_left hi _) h.2

/-- A row takes 64-bit many bytes. -/
theorem pitch_lt (g : Geometry) (f : PixelFormat) :
    g.width.toNat * f.bytesPerPixel < UInt64.size := by
  have hw := g.width.toNat_lt
  have bytes := f.bytesPerPixel_le
  have pitch := Nat.mul_le_mul_left g.width.toNat bytes
  rw [UInt64.size]
  omega

theorem bandRow_lt (g : Geometry) {band : Band} {i : Nat} (hi : i < band.height.toNat) :
    g.bandRow band i < band.height.toNat := by
  cases horder : g.order with
  | topDown => simpa only [bandRow, horder] using hi
  | bottomUp =>
      simp only [bandRow, horder]
      omega

end Geometry

theorem toUInt64_eq_ofNat (x : UInt32) : x.toUInt64 = UInt64.ofNat x.toNat := by
  refine UInt64.toNat_inj.mp ?_
  have := x.toNat_lt
  rw [UInt32.toNat_toUInt64, UInt64.toNat_ofNat', Nat.mod_eq_of_lt (by omega)]

namespace Framebuffer

/-- A row of the picture is a slice of its bytes. -/
theorem rowSlice?_eq_extract (fb : Framebuffer f) {y : UInt32} (hy : y < fb.height) :
    fb.storageRow y.toNat * fb.pitch f + fb.pitch f ≤ fb.bytes.size ∧
      fb.rowSlice? y = .ok (fb.bytes.extract (fb.storageRow y.toNat * fb.pitch f)
        (fb.storageRow y.toNat * fb.pitch f + fb.pitch f)) := by
  have inside : (fb.storageRow y.toNat + 1) * fb.pitch f ≤ fb.bytes.size := by
    rw [fb.size_bytes, fb.toGeometry.byteLength_eq]
    exact Nat.mul_le_mul_right _ (fb.storageRow_lt (UInt32.lt_iff_toNat_lt.mp hy))
  rw [Nat.succ_mul] at inside
  refine ⟨inside, ?_⟩
  rw [rowSlice?, if_pos hy]
  exact slice?_eq_ok (Nat.le_add_right _ _) inside

/-- A row of the picture has the colors of its pixels. -/
theorem rowSlice?_eq_ok (src : Framebuffer s) {y : UInt32} (hy : y < src.height) :
    ∃ row : Buffer, src.rowSlice? y = .ok row ∧
      row.size = src.width.toNat * s.bytesPerPixel ∧
      ∀ x < src.width.toNat, row.color s x = src.color x y.toNat := by
  obtain ⟨inside, slice⟩ := src.rowSlice?_eq_extract hy
  have first : src.storageRow y.toNat * src.pitch s =
      src.storageRow y.toNat * src.width.toNat * s.bytesPerPixel := (Nat.mul_assoc ..).symm
  have last : src.storageRow y.toNat * src.pitch s + src.pitch s =
      (src.storageRow y.toNat * src.width.toNat + src.width.toNat) * s.bytesPerPixel := by
    rw [first, Nat.add_mul]
    rfl
  refine ⟨_, slice, ?_, ?_⟩
  · rw [Array.size_extract, Nat.min_eq_left inside, Nat.add_sub_cancel_left]
    rfl
  · intro x hx
    rw [last] at inside
    rw [last, first, Buffer.color, cell?_extract inside (by omega),
      color_eq_cell src hx (UInt32.lt_iff_toNat_lt.mp hy)]
    rfl

/-- The source row for a row in memory of a band is that of the same row of the band, and the
band lies inside it. -/
theorem sourceSlice?_eq_ok (g : Geometry) {src : Framebuffer s} {band : Band} {sx sy : UInt32}
    {i : Nat} (fits : (band.movedTo sx sy).Fits src.width src.height)
    (hi : i < band.height.toNat) :
    ∃ source : Buffer, sourceSlice? src (g.bandRows band) band sy i = .ok source ∧
      (sx.toNat + band.width.toNat) * s.bytesPerPixel ≤ source.size ∧
      source.size < UInt64.size ∧
      ∀ dx < band.width.toNat, source.color s (sx.toNat + dx) =
        src.color (sx.toNat + dx) (sy.toNat + g.bandRow band i) := by
  have right : sx.toNat + band.width.toNat ≤ src.width.toNat := fits.1
  have bottom : sy.toNat + band.height.toNat ≤ src.height.toNat := fits.2
  have hrow := g.bandRow_lt hi
  -- The number of the source row is kept in 32 bits, which is enough inside the source.
  have height := src.height.toNat_lt
  have number : (UInt32.ofNat (sy.toNat + g.bandRow band i)).toNat =
      sy.toNat + g.bandRow band i := by
    rw [UInt32.toNat_ofNat', Nat.mod_eq_of_lt (by omega)]
  have inside : UInt32.ofNat (sy.toNat + g.bandRow band i) < src.height := by
    rw [UInt32.lt_iff_toNat_lt, number]
    omega
  have small : sy.toNat + band.height.toNat < UInt32.size :=
    Nat.lt_of_le_of_lt bottom src.height.toNat_lt_size
  obtain ⟨source, slice, size, colors⟩ := src.rowSlice?_eq_ok inside
  rw [number] at colors
  refine ⟨source, ?_, ?_, size ▸ src.pitch_lt s, fun dx hdx => colors _ (by omega)⟩
  · rw [sourceSlice?, g.sourceRow?_eq_ok small hi]
    exact slice
  · rw [size]
    exact Nat.mul_le_mul_right _ right

variable {g : Geometry} {band : Band} {row : Buffer} {sx sy : UInt32} {src : Framebuffer s}

/-- The places of a band in a row of the picture. -/
theorem row_inside (right : band.x.toNat + band.width.toNat ≤ g.width.toNat)
    (size : row.size = g.width.toNat * f.bytesPerPixel) :
    (band.x.toNat + band.width.toNat) * f.bytesPerPixel ≤ row.size := by
  rw [size]
  exact Nat.mul_le_mul_right _ right

theorem fillRow_eq (op : Operation f s) (c : Color s)
    (right : band.x.toNat + band.width.toNat ≤ g.width.toNat)
    (size : row.size = g.width.toNat * f.bytesPerPixel) :
    fillRow op band c row = .finished
      (mapCells (inRange band.x.toNat band.width.toNat fun _ d => op.result d c) row) := by
  rw [fillRow, toUInt64_eq_ofNat]
  exact op.fillPixels_forward c (row_inside right size) (size ▸ g.pitch_lt f)

theorem fillPlace_eq (op : Operation f s) (c : Color s) {j : Nat} (hj : j < band.width.toNat)
    (right : band.x.toNat + band.width.toNat ≤ g.width.toNat)
    (size : row.size = g.width.toNat * f.bytesPerPixel) :
    fillPlace op band c j row =
      .finished (mapCells (inPlace (band.x.toNat + j) fun d => op.result d c) row) := by
  rw [fillPlace, toUInt64_eq_ofNat, Location.forward_advance]
  exact op.put_forward c (Operation.place_inside hj (row_inside right size)) (size ▸ g.pitch_lt f)

theorem copyRow_eq (op : Operation f s) {i : Nat}
    (right : band.x.toNat + band.width.toNat ≤ g.width.toNat)
    (fits : (band.movedTo sx sy).Fits src.width src.height) (hi : i < band.height.toNat)
    (size : row.size = g.width.toNat * f.bytesPerPixel) :
    copyRow op band src sx sy (g.bandRows band) i row = .finished
      (mapCells (inRange band.x.toNat band.width.toNat fun dx d =>
        op.result d (src.color (sx.toNat + dx) (sy.toNat + g.bandRow band i))) row) := by
  obtain ⟨source, slice, inside, small, colors⟩ := sourceSlice?_eq_ok g fits hi
  rw [copyRow, slice]
  simp only [toUInt64_eq_ofNat]
  rw [op.copyPixels_forward (row_inside right size) (size ▸ g.pitch_lt f) inside small]
  congr 2
  exact inRange_congr fun dx hdx => by rw [colors dx hdx]

theorem copyPlace_eq (op : Operation f s) {i j : Nat} (hj : j < band.width.toNat)
    (right : band.x.toNat + band.width.toNat ≤ g.width.toNat)
    (fits : (band.movedTo sx sy).Fits src.width src.height) (hi : i < band.height.toNat)
    (size : row.size = g.width.toNat * f.bytesPerPixel) :
    copyPlace op band src sx sy (g.bandRows band) i j row = .finished
      (mapCells (inPlace (band.x.toNat + j) fun d =>
        op.result d (src.color (sx.toNat + j) (sy.toNat + g.bandRow band i))) row) := by
  obtain ⟨source, slice, inside, small, colors⟩ := sourceSlice?_eq_ok g fits hi
  rw [copyPlace, slice]
  simp only [toUInt64_eq_ofNat, Location.forward_advance]
  rw [op.putFrom_forward (Operation.place_inside hj (row_inside right size))
    (size ▸ g.pitch_lt f) (Operation.place_inside hj inside) small, colors j hj]

end Framebuffer

/-! ### What checks ask for -/

/-- What must hold before a span is copied. -/
def Framebuffer.checkCopySpan (g source : Geometry) (x y sx sy n : UInt32) : Except Error Unit := do
  g.checkSpan x y n
  source.checkSpan sx sy n

/-- A check that asks for rectangles and for threads, in this order, and for nothing else. -/
structure Asks (check : Except Error Unit) (rectangles threads : Prop) : Prop where
  /-- It passes if both are as they should be. -/
  passes : rectangles → threads → check = .ok ()
  /-- The rectangles come first. -/
  bounds : ¬ rectangles → ∃ e, check = .error e ∧ e.category = .bounds
  /-- If only the threads are wrong, the error is about them. -/
  validation : rectangles → ¬ threads → ∃ e, check = .error e ∧ e.category = .validation

namespace Asks

/-- A check that passes has found both as they should be. -/
theorem of_passed {check : Except Error Unit} {rectangles threads : Prop}
    (h : Asks check rectangles threads) (passed : check = .ok ()) : rectangles ∧ threads := by
  have inside : rectangles := by
    refine Classical.byContradiction ?_
    intro outside
    obtain ⟨e, error, -⟩ := h.bounds outside
    cases passed.symm.trans error
  refine ⟨inside, Classical.byContradiction fun idle => ?_⟩
  obtain ⟨e, error, -⟩ := h.validation inside idle
  cases passed.symm.trans error

/-- A check that asks for rectangles only, followed by another. -/
theorem seq {check check' : Except Error Unit} {first second both threads : Prop}
    (h : Asks check first True) (h' : Asks check' second threads)
    (all : both ↔ first ∧ second) : Asks (do check; check') both threads where
  passes := by
    intro hb ht
    obtain ⟨h₁, h₂⟩ := all.mp hb
    rw [h.passes h₁ trivial]
    exact h'.passes h₂ ht
  bounds := by
    intro hb
    by_cases h₁ : first
    · obtain ⟨e, error, category⟩ := h'.bounds fun h₂ => hb (all.mpr ⟨h₁, h₂⟩)
      refine ⟨e, ?_, category⟩
      rw [h.passes h₁ trivial]
      exact error
    · obtain ⟨e, error, category⟩ := h.bounds h₁
      refine ⟨e, ?_, category⟩
      rw [error]
      rfl
  validation := by
    intro hb ht
    obtain ⟨h₁, h₂⟩ := all.mp hb
    obtain ⟨e, error, category⟩ := h'.validation h₂ ht
    refine ⟨e, ?_, category⟩
    rw [h.passes h₁ trivial]
    exact error

theorem checkSpan (g : Geometry) (x y n : UInt32) :
    Asks (g.checkSpan x y n) (g.HasSpan x y n) True where
  passes := fun inside _ =>
    (g.checkSpan_eq_ok_iff x y n).mpr ⟨UInt32.lt_iff_toNat_lt.mpr inside.1, inside.2⟩
  bounds := by
    intro outside
    cases h : g.checkSpan x y n with
    | ok _ =>
        obtain ⟨hy, hx⟩ := (g.checkSpan_eq_ok_iff x y n).mp h
        exact absurd ⟨UInt32.lt_iff_toNat_lt.mp hy, hx⟩ outside
    | error e =>
        refine ⟨e, rfl, ?_⟩
        rw [Geometry.checkSpan] at h
        split at h
        · split at h
          · cases h
          · cases h
            rfl
        · cases h
          rfl
  validation := fun _ no => absurd trivial no

theorem checkBand (g : Geometry) (role : BandRole) (band : Band) :
    Asks (g.checkBand role band) (band.Fits g.width g.height) True where
  passes := fun fits _ => if_pos fits
  bounds := fun outside => ⟨_, if_neg outside, rfl⟩
  validation := fun _ no => absurd trivial no

theorem threading (t : Threading) : Asks t.check True (t.threads ≠ some 0) where
  passes := fun _ manned => if_neg manned
  bounds := fun no => absurd trivial no
  validation := fun _ idle => ⟨.noThreads, if_pos (Decidable.not_not.mp idle), rfl⟩

theorem checkCopySpan (g source : Geometry) (x y sx sy n : UInt32) :
    Asks (Framebuffer.checkCopySpan g source x y sx sy n)
      (g.HasSpan x y n ∧ source.HasSpan sx sy n) True :=
  (checkSpan g x y n).seq (checkSpan source sx sy n) Iff.rfl

theorem checkFill (g : Geometry) (band : Band) (t : Threading) :
    Asks (Framebuffer.checkFill g band t) (band.Fits g.width g.height) (t.threads ≠ some 0) :=
  (checkBand g .fill band).seq (threading t) (and_true _).symm.to_iff

theorem checkCopy (g source : Geometry) (band : Band) (sx sy : UInt32) (t : Threading) :
    Asks (Framebuffer.checkCopy g source band sx sy t)
      (band.Fits g.width g.height ∧ (band.movedTo sx sy).Fits source.width source.height)
      (t.threads ≠ some 0) :=
  (checkBand g .copyDestination band).seq
    ((checkBand source .copySource (band.movedTo sx sy)).seq (threading t)
      (and_true _).symm.to_iff) Iff.rfl

end Asks

namespace Framebuffer

variable {g : Geometry} {band : Band} {sx sy : UInt32}

/-! ### The answers -/

/-- What a request comes to: the error of its check, or the new picture. -/
def answer (fb : Framebuffer f) (check : Except Error Unit) (drawn : Framebuffer f) :
    Outcome Failure (Framebuffer f) :=
  match check with
  | .error e => fb.refuse e
  | .ok () => .finished drawn

/-- An answer keeps the geometry, if the new picture does. -/
theorem toGeometry_state_answer {fb drawn : Framebuffer f} (check : Except Error Unit)
    (h : drawn.toGeometry = fb.toGeometry) :
    (fb.answer check drawn).state.toGeometry = fb.toGeometry := by
  cases check with
  | error e => rfl
  | ok _ => exact h

/-- To go on from a span is to check it first, if what comes next is an answer. -/
theorem fromSpan_eq {fb drawn : Framebuffer f} {x y n : UInt32} {check : Except Error Unit}
    {next : Location → Outcome Failure (Framebuffer f)}
    (rest : g.checkSpan x y n = .ok () →
      next (.forward (UInt64.ofNat (g.spanPlace x y n))) = fb.answer check drawn) :
    fb.fromSpan g x y n next = fb.answer (do g.checkSpan x y n; check) drawn := by
  rw [fromSpan]
  cases granted : g.checkSpan x y n with
  | error e =>
      rw [Geometry.spanStart?, granted]
      rfl
  | ok _ =>
      rw [g.spanStart?_eq_ok granted]
      exact rest granted

/-- The same where nothing else is checked. -/
theorem fromSpan_eq_last {fb drawn : Framebuffer f} {x y n : UInt32}
    {next : Location → Outcome Failure (Framebuffer f)}
    (rest : g.checkSpan x y n = .ok () →
      next (.forward (UInt64.ofNat (g.spanPlace x y n))) = .finished drawn) :
    fb.fromSpan g x y n next = fb.answer (g.checkSpan x y n) drawn := by
  have answer : fb.fromSpan g x y n next =
      fb.answer (do g.checkSpan x y n; .ok ()) drawn := fromSpan_eq rest
  rw [answer]
  cases g.checkSpan x y n with
  | error e => rfl
  | ok _ => rfl

theorem fillSpan_eq (fb : Framebuffer f) (op : Operation f s) (x y n : UInt32) (c : Color s) :
    fb.fillSpan op x y n c = fb.answer (fb.checkSpan x y n)
      (fb.mapPixels ((Band.ofSpan x y n).inside fun _ _ d => op.result d c)) := by
  refine fromSpan_eq_last ?_
  intro granted
  have inside := fb.spanPlace_inside f granted
  rw [← fb.size_bytes] at inside
  exact draw_span granted (op.fillPixels_forward c inside fb.size_lt)

theorem copySpan_eq (fb : Framebuffer f) (op : Operation f s) (x y : UInt32)
    (src : Framebuffer s) (sx sy n : UInt32) :
    fb.copySpan op x y src sx sy n =
      fb.answer (checkCopySpan fb.toGeometry src.toGeometry x y sx sy n)
        (fb.mapPixels ((Band.ofSpan x y n).inside fun dx _ d =>
          op.result d (src.color (sx.toNat + dx) sy.toNat))) := by
  refine fromSpan_eq ?_
  intro granted
  refine fromSpan_eq_last ?_
  intro grantedSrc
  have inside := fb.spanPlace_inside f granted
  have insideSrc := src.spanPlace_inside s grantedSrc
  rw [← fb.size_bytes] at inside
  rw [← src.size_bytes] at insideSrc
  have drawn := op.copyPixels_forward inside fb.size_lt insideSrc src.size_lt
  -- What is drawn are the colors in the places of the source, which are those of its pixels.
  have colors : (inRange (fb.spanPlace x y n) n.toNat fun j d =>
      op.result d (src.bytes.color s (src.spanPlace sx sy n + j))) =
      inRange (fb.spanPlace x y n) n.toNat fun j d =>
        op.result d (src.color (sx.toNat + j) sy.toNat) :=
    inRange_congr fun j hj => by rw [color_spanPlace grantedSrc hj]
  rw [colors] at drawn
  exact draw_span granted drawn

/-- The pixel at one place drawn onto the pixel at another. -/
def drawPixel (op : Operation f f) (sx sy x y : Nat) (fb : Framebuffer f) : Framebuffer f :=
  fb.mapPixels fun X Y d => if X = x ∧ Y = y then op.result d (fb.color sx sy) else d

@[simp] theorem toGeometry_drawPixel (op : Operation f f) (sx sy x y : Nat)
    (fb : Framebuffer f) : (fb.drawPixel op sx sy x y).toGeometry = fb.toGeometry := rfl

/-- To draw a pixel is to draw the color in its place. -/
theorem bytes_drawPixel (op : Operation f f) {fb : Framebuffer f} {sx sy x y : Nat}
    (hsx : sx < fb.width.toNat) (hsy : sy < fb.height.toNat) (hx : x < fb.width.toNat)
    (hy : y < fb.height.toNat) : (fb.drawPixel op sx sy x y).bytes =
      op.drawPlace (fb.place sx sy) (fb.place x y) fb.bytes := by
  rw [drawPixel, bytes_mapPixels, Operation.drawPlace, ← color_eq_cell fb hsx hsy]
  refine mapCells_congr ?_
  intro k d there
  obtain ⟨column, row⟩ := lt_of_cell? there
  have here := fb.place_inj hx hy column (fb.storageRow_lt row)
  rw [fb.place_of_lt row] at here
  simp only [inPlace, here]

/-- Pixels of a span drawn onto those of another, one after the other. -/
def drawPixels (op : Operation f f) (sx sy x y n : Nat) (fb : Framebuffer f) : Framebuffer f :=
  (List.range n).foldl (fun fb j => fb.drawPixel op (sx + j) sy (x + j) y) fb

theorem drawPixels_succ (op : Operation f f) (sx sy x y n : Nat) (fb : Framebuffer f) :
    fb.drawPixels op sx sy x y (n + 1) =
      (fb.drawPixels op sx sy x y n).drawPixel op (sx + n) sy (x + n) y := by
  rw [drawPixels, List.range_succ, List.foldl_append]
  rfl

@[simp] theorem toGeometry_drawPixels (op : Operation f f) (sx sy x y n : Nat)
    (fb : Framebuffer f) : (fb.drawPixels op sx sy x y n).toGeometry = fb.toGeometry := by
  induction n with
  | zero => rfl
  | succ n ih => rw [drawPixels_succ, toGeometry_drawPixel, ih]

/-- To draw them is to draw the colors in their places. -/
theorem bytes_drawPixels (op : Operation f f) {fb : Framebuffer f} {sx sy x y n : Nat}
    (hsx : sx + n ≤ fb.width.toNat) (hsy : sy < fb.height.toNat) (hx : x + n ≤ fb.width.toNat)
    (hy : y < fb.height.toNat) : (fb.drawPixels op sx sy x y n).bytes =
      (List.range n).foldl
        (fun b j => op.drawPlace (fb.place sx sy + j) (fb.place x y + j) b) fb.bytes := by
  induction n with
  | zero => rfl
  | succ n ih =>
      rw [drawPixels_succ, bytes_drawPixel, toGeometry_drawPixels, ih (by omega) (by omega),
        List.range_succ, List.foldl_append, fb.place_add, fb.place_add]
      · rfl
      -- What is drawn first does not move the edges.
      all_goals
        rw [toGeometry_drawPixels]
        omega

theorem copySpanWithin_eq (fb : Framebuffer f) (op : Operation f f) (x y sx sy n : UInt32) :
    fb.copySpanWithin op x y sx sy n =
      fb.answer (checkCopySpan fb.toGeometry fb.toGeometry x y sx sy n)
        (fb.drawPixels op sx.toNat sy.toNat x.toNat y.toNat n.toNat) := by
  refine fromSpan_eq ?_
  intro granted
  refine fromSpan_eq_last ?_
  intro grantedSrc
  have inside := fb.spanPlace_inside f granted
  have insideSrc := fb.spanPlace_inside f grantedSrc
  rw [← fb.size_bytes] at inside insideSrc
  obtain ⟨hy, hx⟩ := (fb.checkSpan_eq_ok_iff x y n).mp granted
  obtain ⟨hsy, hsx⟩ := (fb.checkSpan_eq_ok_iff sx sy n).mp grantedSrc
  rw [UInt32.lt_iff_toNat_lt] at hy hsy
  refine draw_eq_finished (toGeometry_drawPixels ..) ?_
  rw [op.copyPixelsWithin_forward inside insideSrc fb.size_lt,
    bytes_drawPixels op hsx hsy hx hy]
  by_cases pos : 0 < n.toNat
  · rw [fb.spanPlace_of_lt pos, fb.spanPlace_of_lt pos]
  · have empty : n.toNat = 0 := by omega
    rw [empty]
    rfl

/-! ### Bands -/

theorem fillRows_eq (fb : Framebuffer f) (op : Operation f s) (band : Band) (c : Color s)
    (threading : Threading) :
    fb.fillRows op band c threading = fb.answer (checkFill fb.toGeometry band threading)
      (fb.mapPixels (band.inside fun _ _ d => op.result d c)) := by
  rw [fillRows]
  cases granted : checkFill fb.toGeometry band threading with
  | error e => rfl
  | ok _ =>
      have fits := ((Asks.checkFill ..).of_passed granted).1
      refine draw_onBand fits ?_
      intro part pos size
      exact eachPiece_eq_mapCells (g := fun _ => inRange band.x.toNat band.width.toNat
        fun _ d => op.result d c) pos size fun i hi row size => fillRow_eq op c fits.1 size

theorem fillRowsOn_eq (pool : Pool) (fb : Framebuffer f) (op : Operation f s) (band : Band)
    (c : Color s) (threading : Threading) :
    fillRowsOn pool fb op band c threading = fb.answer (checkFill fb.toGeometry band threading)
      (fb.mapPixels (band.inside fun _ _ d => op.result d c)) := by
  rw [fillRowsOn]
  split
  · cases granted : checkFill fb.toGeometry band threading with
    | error e => rfl
    | ok _ =>
        have fits := ((Asks.checkFill ..).of_passed granted).1
        refine draw_onBand fits ?_
        intro part pos size
        exact sharePieces_eq_mapCells (g := fun _ _ d => op.result d c) pos size
          fun i hi j hj row size => fillPlace_eq op c hj fits.1 size
  · exact fb.fillRows_eq op band c threading

theorem copyRows_eq (fb : Framebuffer f) (op : Operation f s) (band : Band)
    (src : Framebuffer s) (sx sy : UInt32) (threading : Threading) :
    fb.copyRows op band src sx sy threading =
      fb.answer (checkCopy fb.toGeometry src.toGeometry band sx sy threading)
        (fb.mapPixels (band.inside fun dx dy d =>
          op.result d (src.color (sx.toNat + dx) (sy.toNat + dy)))) := by
  rw [copyRows]
  cases granted : checkCopy fb.toGeometry src.toGeometry band sx sy threading with
  | error e => rfl
  | ok _ =>
      obtain ⟨⟨fits, fitsSrc⟩, -⟩ := (Asks.checkCopy ..).of_passed granted
      refine draw_onBand fits ?_
      intro part pos size
      exact eachPiece_eq_mapCells (g := fun i => inRange band.x.toNat band.width.toNat
        fun dx d => op.result d (src.color (sx.toNat + dx) (sy.toNat + fb.bandRow band i)))
        pos size fun i hi row size => copyRow_eq op fits.1 fitsSrc hi size

theorem copyRowsOn_eq (pool : Pool) (fb : Framebuffer f) (op : Operation f s) (band : Band)
    (src : Framebuffer s) (sx sy : UInt32) (threading : Threading) :
    copyRowsOn pool fb op band src sx sy threading =
      fb.answer (checkCopy fb.toGeometry src.toGeometry band sx sy threading)
        (fb.mapPixels (band.inside fun dx dy d =>
          op.result d (src.color (sx.toNat + dx) (sy.toNat + dy)))) := by
  rw [copyRowsOn]
  split
  · cases granted : checkCopy fb.toGeometry src.toGeometry band sx sy threading with
    | error e => rfl
    | ok _ =>
        obtain ⟨⟨fits, fitsSrc⟩, -⟩ := (Asks.checkCopy ..).of_passed granted
        refine draw_onBand fits ?_
        intro part pos size
        exact sharePieces_eq_mapCells (g := fun i dx d =>
          op.result d (src.color (sx.toNat + dx) (sy.toNat + fb.bandRow band i)))
          pos size fun i hi j hj row size => copyPlace_eq op hj fits.1 fitsSrc hi size
  · exact fb.copyRows_eq op band src sx sy threading

end Framebuffer

/-! ### When a request is granted -/

/-- How a request ends that asks for rectangles and for threads. -/
structure Settled (fb : Framebuffer f) (r : Outcome Failure (Framebuffer f))
    (rectangles threads : Prop) : Prop where
  /-- Whatever is asked, nothing breaks. -/
  faultless : ∀ fault, r.cause? ≠ some (.fault fault)
  /-- It is granted exactly if all is as it should be. -/
  granted_iff : (∃ fb', r = .finished fb') ↔ rectangles ∧ threads
  /-- Wrong rectangles are refused as such, and the framebuffer is as before. -/
  bounds : ¬ rectangles → ∃ e, r = .stopped (.error e) fb ∧ e.category = .bounds
  /-- So are wrong threads, if only they are wrong. -/
  validation : rectangles → ¬ threads →
    ∃ e, r = .stopped (.error e) fb ∧ e.category = .validation

/-- A request that comes to the answer of a check ends as the check asks. -/
theorem Asks.settled {check : Except Error Unit} {rectangles threads : Prop}
    (h : Asks check rectangles threads) (fb drawn : Framebuffer f) :
    Settled fb (fb.answer check drawn) rectangles threads where
  faultless := by
    intro fault
    cases check with
    | error e => simp [Framebuffer.answer, Framebuffer.refuse]
    | ok _ => simp [Framebuffer.answer]
  granted_iff := by
    constructor
    · rintro ⟨fb', finished⟩
      -- A request that finished passed its check, and the check tells.
      cases passed : check with
      | error e =>
          rw [passed] at finished
          cases finished
      | ok _ => exact h.of_passed passed
    · rintro ⟨inside, manned⟩
      rw [h.passes inside manned]
      exact ⟨drawn, rfl⟩
  bounds := by
    intro outside
    obtain ⟨e, rfl, category⟩ := h.bounds outside
    exact ⟨e, rfl, category⟩
  validation := by
    intro inside idle
    obtain ⟨e, rfl, category⟩ := h.validation inside idle
    exact ⟨e, rfl, category⟩

/-- Every request is granted exactly if its rectangles lie in their pictures, over exact
integers, and its setting does not ask for a pool of no threads. Otherwise it is refused with
an error about the rectangles if one of them is wrong, and about the setting if only that is,
and the framebuffer is as before. No request of any kind meets a fault. -/
theorem requests_settled (fb : Framebuffer f) (src : Framebuffer s) (op : Operation f s)
    (own : Operation f f) (c : Color s) (x y sx sy n : UInt32) (band : Band)
    (threading : Threading) (pool : Pool) :
    Settled fb (fb.fillSpan op x y n c) (fb.HasSpan x y n) True ∧
    Settled fb (fb.copySpan op x y src sx sy n) (fb.HasSpan x y n ∧ src.HasSpan sx sy n) True ∧
    Settled fb (fb.copySpanWithin own x y sx sy n)
      (fb.HasSpan x y n ∧ fb.HasSpan sx sy n) True ∧
    Settled fb (fb.fillRowsOn pool op band c threading) (band.Fits fb.width fb.height)
      (threading.threads ≠ some 0) ∧
    Settled fb (fb.copyRowsOn pool op band src sx sy threading)
      (band.Fits fb.width fb.height ∧ (band.movedTo sx sy).Fits src.width src.height)
      (threading.threads ≠ some 0) := by
  refine ⟨?_, ?_, ?_, ?_, ?_⟩
  · rw [fb.fillSpan_eq]
    exact (Asks.checkSpan fb.toGeometry x y n).settled fb _
  · rw [fb.copySpan_eq]
    exact (Asks.checkCopySpan fb.toGeometry src.toGeometry x y sx sy n).settled fb _
  · rw [fb.copySpanWithin_eq]
    exact (Asks.checkCopySpan fb.toGeometry fb.toGeometry x y sx sy n).settled fb _
  · rw [fb.fillRowsOn_eq]
    exact (Asks.checkFill fb.toGeometry band threading).settled fb _
  · rw [fb.copyRowsOn_eq]
    exact (Asks.checkCopy fb.toGeometry src.toGeometry band sx sy threading).settled fb _

end Raster
