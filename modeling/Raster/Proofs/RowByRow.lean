import Raster.Proofs.Requests
/-!
# Bands row by row

A band can be drawn in one request or in one request for each of its rows, and it is the same
(`rows_one_by_one`). The two ways have little in common. A row of its own is checked with its
number and drawn at its places among all pixels; a band is checked by its edges, taken out of
the memory as a whole and drawn with the rows as they lie there, on a pool if need be. What
they come to are changes of pixels, though, and those of the rows add up to that of the band
(`sweep_rows_eq_mapPixels`).

The numbers of rows have 32 bits, and so a band can have rows without a number. Such a band is
refused, and so is one of its rows that do have a number, since no picture has a row with the
largest of them.
-/

namespace Raster

variable {f s : PixelFormat}

/-! ### Rows of a band -/

namespace Band

/-- The first `n` rows of a band. -/
def take (band : Band) (n : Nat) : Band := { band with height := .ofNat n }

/-- The `n`-th row of a band. -/
def row (band : Band) (n : Nat) : Band := ofSpan band.x (.ofNat (band.y.toNat + n)) band.width

variable {n : Nat}

theorem take_height (band : Band) : band.take band.height.toNat = band := by
  rw [take, UInt32.ofNat_toNat]

theorem contains_take (band : Band) (hn : n < UInt32.size) {x y : Nat} :
    (band.take n).Contains x y ↔ (band.x.toNat ≤ x ∧ x < band.x.toNat + band.width.toNat) ∧
      band.y.toNat ≤ y ∧ y < band.y.toNat + n := by
  simp only [Contains, take, UInt32.toNat_ofNat_of_lt' hn]

theorem contains_row (band : Band) (numbered : band.y.toNat + n < UInt32.size) {x y : Nat} :
    (band.row n).Contains x y ↔ (band.x.toNat ≤ x ∧ x < band.x.toNat + band.width.toNat) ∧
      y = band.y.toNat + n := by
  simp only [Contains, row, ofSpan, UInt32.toNat_ofNat_of_lt' numbered, UInt32.toNat_one]
  omega

/-- The first rows and the next one are the rows up to that. -/
theorem inside_row_take (band : Band) (change : Nat → Nat → Color f → Color f)
    (numbered : band.y.toNat + n < UInt32.size) (hn : n + 1 < UInt32.size) (x y : Nat)
    (d : Color f) :
    (band.row n).inside (fun dx _ => change dx n) x y ((band.take n).inside change x y d) =
      (band.take (n + 1)).inside change x y d := by
  have upTo := band.contains_take hn (x := x) (y := y)
  have before := band.contains_take (Nat.lt_of_succ_lt hn) (x := x) (y := y)
  have here := band.contains_row numbered (x := x) (y := y)
  by_cases next : (band.row n).Contains x y
  · have column := here.mp next
    have number : y - (band.take (n + 1)).y.toNat = n := by
      rw [column.2]
      exact Nat.add_sub_cancel_left ..
    have untouched : ¬ (band.take n).Contains x y := by
      intro h
      have row := before.mp h
      omega
    rw [inside_of_contains next, inside_of_not_contains untouched,
      inside_of_contains (upTo.mpr ⟨column.1, by omega⟩), number]
    rfl
  · rw [inside_of_not_contains next]
    by_cases earlier : (band.take n).Contains x y
    · have column := before.mp earlier
      rw [inside_of_contains earlier, inside_of_contains (upTo.mpr ⟨column.1, by omega⟩)]
      rfl
    · rw [inside_of_not_contains earlier, inside_of_not_contains]
      intro h
      have column := upTo.mp h
      by_cases last : y = band.y.toNat + n
      · exact next (here.mpr ⟨column.1, last⟩)
      · exact earlier (before.mpr ⟨column.1, by omega⟩)

theorem movedTo_self (band : Band) : band.movedTo band.x band.y = band := rfl

/-- A band that has rows lies in its picture, and its source in another, exactly if all its rows
do whose numbers have 32 bits. -/
theorem fits_iff_rows (band : Band) (g source : Geometry) (sx sy : UInt32)
    (rows : 0 < band.height.toNat) :
    (band.Fits g.width g.height ∧ (band.movedTo sx sy).Fits source.width source.height) ↔
      ∀ k < band.height.toNat,
        band.y.toNat + k < UInt32.size ∧ sy.toNat + k < UInt32.size →
          g.HasSpan band.x (.ofNat (band.y.toNat + k)) band.width ∧
            source.HasSpan sx (.ofNat (sy.toNat + k)) band.width := by
  have height := g.height.toNat_lt_size
  have height' := source.height.toNat_lt_size
  simp only [Fits, movedTo, Geometry.HasSpan]
  constructor
  · rintro ⟨fits, fits'⟩ k hk ⟨number, number'⟩
    rw [UInt32.toNat_ofNat_of_lt' number, UInt32.toNat_ofNat_of_lt' number']
    omega
  · intro inside
    have hy := band.y.toNat_lt_size
    have hsy := sy.toNat_lt_size
    -- The last row decides, or the first one with the largest number.
    obtain ⟨k, hk, number, number', last⟩ : ∃ k < band.height.toNat,
        band.y.toNat + k < UInt32.size ∧ sy.toNat + k < UInt32.size ∧
          (k + 1 = band.height.toNat ∨ band.y.toNat + k + 1 = UInt32.size ∨
            sy.toNat + k + 1 = UInt32.size) :=
      ⟨min (band.height.toNat - 1) (min (UInt32.size - 1 - band.y.toNat)
        (UInt32.size - 1 - sy.toNat)), by omega⟩
    have row := inside k hk ⟨number, number'⟩
    rw [UInt32.toNat_ofNat_of_lt' number, UInt32.toNat_ofNat_of_lt' number'] at row
    omega

end Band

namespace Framebuffer

variable {fb : Framebuffer f} {band : Band}
  {row : Nat → Framebuffer f → Outcome Failure (Framebuffer f)}

/-- A loop each of whose steps changes pixels by `g`, changes them by what `g` adds up to. -/
theorem sweep_eq_mapPixels {n : Nat} (g total : Nat → Nat → Nat → Color f → Color f)
    (start : ∀ x y d, total 0 x y d = d)
    (next : ∀ k < n, ∀ x y d, g k x y (total k x y d) = total (k + 1) x y d)
    (each : ∀ k < n, ∀ fb' : Framebuffer f, fb'.toGeometry = fb.toGeometry →
      row k fb' = .finished (fb'.mapPixels (g k))) :
    Outcome.sweep row 0 n fb = .finished (fb.mapPixels (total n)) := by
  refine Outcome.sweep_along (fun k => fb.mapPixels (total k)) ?_ ?_
  · have nothing : total 0 = fun _ _ d => d := by
      funext x y d
      exact start x y d
    rw [nothing, fb.mapPixels_id]
  · intro k hk
    have after : (fun x y d => g k x y (total k x y d)) = total (k + 1) := by
      funext x y d
      exact next k hk x y d
    rw [Nat.zero_add, each k hk _ (toGeometry_mapPixels (total k) fb), mapPixels_mapPixels, after]

/-- To change the pixels of the rows of a band, one row after the other, is to change the pixels
of the band. -/
theorem sweep_rows_eq_mapPixels {change : Nat → Nat → Color f → Color f}
    (numbered : ∀ k < band.height.toNat, band.y.toNat + k < UInt32.size)
    (each : ∀ k < band.height.toNat, ∀ fb' : Framebuffer f, fb'.toGeometry = fb.toGeometry →
      row k fb' = .finished (fb'.mapPixels ((band.row k).inside fun dx _ => change dx k))) :
    Outcome.sweep row 0 band.height.toNat fb = .finished (fb.mapPixels (band.inside change)) := by
  have rows := sweep_eq_mapPixels (fun k => (band.row k).inside fun dx _ => change dx k)
    (fun k => (band.take k).inside change) ?_ ?_ each
  · rwa [band.take_height] at rows
  · intro x y d
    refine Band.inside_of_not_contains ?_
    intro within
    have empty := (band.contains_take (by decide)).mp within
    omega
  · intro k hk
    have height := band.height.toNat_lt_size
    exact band.inside_row_take change (numbered k hk) (by omega)

/-! ### Requests -/

/-- The request was refused as one that is out of bounds, at `fb`. -/
def OutOfBounds (fb : Framebuffer f) (r : Outcome Failure (Framebuffer f)) : Prop :=
  ∃ e, r = .stopped (.error e) fb ∧ e.category = .bounds

/-- `whole` is what comes of a request to draw a band of `n` rows into `fb`, and `row k` is the
request for the `k`-th row alone, which can be made if its numbers have 32 bits. The one is
all of the others. -/
structure RowByRow (fb : Framebuffer f) (whole : Outcome Failure (Framebuffer f)) (n : Nat)
    (numbered : Nat → Prop) (row : Nat → Framebuffer f → Outcome Failure (Framebuffer f)) :
    Prop where
  /-- The band is granted exactly if each of its rows is. -/
  granted_iff : (∃ fb', whole = .finished fb') ↔
    ∀ k < n, numbered k → ∃ fb', row k fb = .finished fb'
  /-- Then the rows from top to bottom come to the same picture. -/
  same : ∀ {fb'}, whole = .finished fb' →
    (∀ k < n, numbered k) ∧ Outcome.sweep row 0 n fb = .finished fb'
  /-- A row that is not granted is out of bounds. -/
  row_settled : ∀ k, (∃ fb', row k fb = .finished fb') ∨ OutOfBounds fb (row k fb)
  /-- So is a band that is not granted, and its rows from top to bottom come to one that is. -/
  refused : (¬ ∃ fb', whole = .finished fb') →
    OutOfBounds fb whole ∧ ∃ fb', OutOfBounds fb' (Outcome.sweep row 0 n fb)

/-- Rows of which one is out of bounds come to a stop, there or at an earlier one that is out of
bounds, too. -/
theorem outOfBounds_sweep {rowInside : Nat → Prop} {n k : Nat}
    (each : ∀ k, ∀ fb' : Framebuffer f, fb'.toGeometry = fb.toGeometry →
      Settled fb' (row k fb') (rowInside k) True)
    (kept : ∀ k, ∀ fb' : Framebuffer f, fb'.toGeometry = fb.toGeometry →
      (row k fb').state.toGeometry = fb.toGeometry)
    (hk : k < n) (outside : ¬ rowInside k) :
    ∃ fb', OutOfBounds fb' (Outcome.sweep row 0 n fb) := by
  have step : ∀ i, ∀ fb' : Framebuffer f, fb'.toGeometry = fb.toGeometry →
      (∃ fb'', row i fb' = .finished fb'' ∧ fb''.toGeometry = fb.toGeometry) ∨
        ∃ cause fb'', row i fb' = .stopped cause fb'' ∧
          ∃ e, cause = .error e ∧ e.category = .bounds := by
    intro i fb' geometry
    by_cases here : rowInside i
    · obtain ⟨fb'', done⟩ := (each i fb' geometry).granted_iff.mpr ⟨here, trivial⟩
      have same := kept i fb' geometry
      rw [done] at same
      exact .inl ⟨fb'', done, same⟩
    · obtain ⟨e, stop, category⟩ := (each i fb' geometry).bounds here
      exact .inr ⟨_, fb', stop, e, rfl, category⟩
  have never : ∀ fb' : Framebuffer f, fb'.toGeometry = fb.toGeometry →
      ∀ fb'', row k fb' ≠ .finished fb'' := by
    intro fb' geometry fb'' done
    exact outside ((each k fb' geometry).granted_iff.mp ⟨fb'', done⟩).1
  obtain ⟨_, fb', stop, e, rfl, category⟩ :=
    Outcome.sweep_stops step (by omega : 0 ≤ k ∧ k < 0 + n) never rfl
  exact ⟨fb', e, stop, category⟩

/-- Requests whose answers are the change of a band and the changes of its rows, and whose checks
ask for the same. -/
theorem rowByRow_of_answers {check : Except Error Unit} {rowCheck : Nat → Except Error Unit}
    {inside threads : Prop} {rowInside numbered : Nat → Prop}
    {change : Nat → Nat → Color f → Color f} (rowChange : Nat → Nat → Color f → Color f)
    (asks : Asks check inside threads) (rowAsks : ∀ k, Asks (rowCheck k) (rowInside k) True)
    (manned : threads)
    (inside_iff : inside ↔ ∀ k < band.height.toNat, numbered k → rowInside k)
    (all : inside → ∀ k < band.height.toNat, numbered k)
    (number : ∀ k, numbered k → band.y.toNat + k < UInt32.size)
    (rows : ∀ k, ∀ fb' : Framebuffer f, fb'.toGeometry = fb.toGeometry →
      row k fb' = fb'.answer (rowCheck k)
        (fb'.mapPixels ((band.row k).inside fun dx _ => rowChange dx k)))
    (same : ∀ k, numbered k → ∀ dx, rowChange dx k = change dx k) :
    RowByRow fb (fb.answer check (fb.mapPixels (band.inside change))) band.height.toNat
      numbered row := by
  have whole := asks.settled fb (fb.mapPixels (band.inside change))
  have each : ∀ k, ∀ fb' : Framebuffer f, fb'.toGeometry = fb.toGeometry →
      Settled fb' (row k fb') (rowInside k) True := by
    intro k fb' geometry
    rw [rows k fb' geometry]
    exact (rowAsks k).settled fb' _
  refine ⟨?_, ?_, ?_, ?_⟩
  · rw [whole.granted_iff, inside_iff]
    simp only [(each _ fb rfl).granted_iff, and_true, manned]
  · intro fb' done
    have granted := (whole.granted_iff.mp ⟨_, done⟩).1
    refine ⟨all granted, ?_⟩
    rw [asks.passes granted manned] at done
    cases done
    refine sweep_rows_eq_mapPixels (fun k hk => number k (all granted k hk)) ?_
    intro k hk fb' geometry
    have numbers := all granted k hk
    rw [rows k fb' geometry, (rowAsks k).passes (inside_iff.mp granted k hk numbers) trivial]
    simp only [same k numbers]
    rfl
  · intro k
    by_cases here : rowInside k
    · exact .inl ((each k fb rfl).granted_iff.mpr ⟨here, trivial⟩)
    · exact .inr ((each k fb rfl).bounds here)
  · intro no
    have outside : ¬ inside := fun h => no (whole.granted_iff.mpr ⟨h, manned⟩)
    refine ⟨whole.bounds outside, ?_⟩
    obtain ⟨k, hk, -, there⟩ : ∃ k < band.height.toNat, numbered k ∧ ¬ rowInside k := by
      simpa [inside_iff] using outside
    refine outOfBounds_sweep each ?_ hk there
    intro k fb' geometry
    rw [rows k fb' geometry, ← geometry]
    exact toGeometry_state_answer _ rfl

/-- A band that has rows can be filled row by row, and it can be copied row by row. Either way, on
any pool, the request for the band is granted exactly if those for its rows are, and comes to
what they come to from top to bottom. If it is not granted, it is out of bounds, and so are they. -/
theorem rows_one_by_one (pool : Pool) (fb : Framebuffer f) (op : Operation f s) (band : Band)
    (c : Color s) (src : Framebuffer s) (sx sy : UInt32) (threading : Threading)
    (rows : band.height ≠ 0) (threads : threading.threads ≠ some 0) :
    RowByRow fb (fb.fillRowsOn pool op band c threading) band.height.toNat
      (fun k => band.y.toNat + k < UInt32.size)
      (fun k fb => fb.fillSpan op band.x (.ofNat (band.y.toNat + k)) band.width c) ∧
    RowByRow fb (fb.copyRowsOn pool op band src sx sy threading) band.height.toNat
      (fun k => band.y.toNat + k < UInt32.size ∧ sy.toNat + k < UInt32.size)
      (fun k fb => fb.copySpan op band.x (.ofNat (band.y.toNat + k)) src sx
        (.ofNat (sy.toNat + k)) band.width) := by
  have pos : 0 < band.height.toNat := by
    refine Nat.pos_of_ne_zero ?_
    intro none
    exact rows (UInt32.toNat_inj.mp none)
  have height := fb.height.toNat_lt_size
  have height' := src.height.toNat_lt_size
  constructor
  · rw [fb.fillRowsOn_eq]
    have rowAsks := fun k =>
      Asks.checkSpan fb.toGeometry band.x (.ofNat (band.y.toNat + k)) band.width
    refine rowByRow_of_answers (fun _ _ d => op.result d c) (Asks.checkFill ..) rowAsks threads
      ?_ ?_ (fun _ number => number) ?_ (fun _ _ _ => rfl)
    · -- Filling is the same as copying the band onto itself, as far as rectangles go.
      have itself := band.fits_iff_rows fb.toGeometry fb.toGeometry band.x band.y pos
      simpa only [and_self, Band.movedTo_self] using itself
    · intro fits k hk
      have bottom : band.y.toNat + band.height.toNat ≤ fb.height.toNat := fits.2
      omega
    · intro k fb' geometry
      rw [fb'.fillSpan_eq, geometry]
      rfl
  · rw [fb.copyRowsOn_eq]
    have rowAsks := fun k => Asks.checkCopySpan fb.toGeometry src.toGeometry band.x
      (.ofNat (band.y.toNat + k)) sx (.ofNat (sy.toNat + k)) band.width
    refine rowByRow_of_answers
      (fun dx k d => op.result d (src.color (sx.toNat + dx) (UInt32.ofNat (sy.toNat + k)).toNat))
      (Asks.checkCopy ..) rowAsks threads
      (band.fits_iff_rows fb.toGeometry src.toGeometry sx sy pos) ?_
      (fun _ numbers => numbers.1) ?_ ?_
    · rintro ⟨fits, fitsSrc⟩ k hk
      have bottom : band.y.toNat + band.height.toNat ≤ fb.height.toNat := fits.2
      have bottom' : sy.toNat + band.height.toNat ≤ src.height.toNat := fitsSrc.2
      omega
    · intro k fb' geometry
      rw [fb'.copySpan_eq, geometry]
      rfl
    · intro k numbers dx
      funext d
      rw [UInt32.toNat_ofNat_of_lt' numbers.2]

/-- The lower two rows of a column are filled. A band from there on that has more rows than there
are numbers is out of bounds, and so are its rows. -/
theorem rows_one_by_one_column :
    let fb : Framebuffer .gray8 := ⟨⟨2, 3, .bottomUp⟩, #[1, 2, 3, 4, 5, 6], rfl, by decide⟩
    let row := fun k (fb : Framebuffer .gray8) => fb.fillSpan .copy 1 (.ofNat (1 + k)) 1 (.gray 9)
    let fill := fun height =>
      fb.fillRowsOn default .copy ⟨1, 1, 1, height⟩ (.gray 9) ⟨true, some 2, 1⟩
    (∃ fb', fill 2 = .finished fb' ∧ Outcome.sweep row 0 2 fb = .finished fb') ∧
      OutOfBounds fb (fill 4294967295) ∧
      ∃ fb', OutOfBounds fb' (Outcome.sweep row 0 4294967295 fb) := by
  intro fb row fill
  have law := fun height rows => (rows_one_by_one default fb .copy ⟨1, 1, 1, height⟩ (.gray 9) fb
    0 0 ⟨true, some 2, 1⟩ rows (by decide)).1
  constructor
  · have two := law 2 (by decide)
    have both : ∀ k < 2, ∃ fb', row k fb = .finished fb' := by
      intro k hk
      match k, hk with
      | 0, _ => exact ⟨_, rfl⟩
      | 1, _ => exact ⟨_, rfl⟩
    obtain ⟨fb', done⟩ := two.granted_iff.mpr fun k hk _ => both k hk
    exact ⟨fb', done, (two.same done).2⟩
  · have many := law 4294967295 (by decide)
    refine many.refused ?_
    rintro ⟨fb', done⟩
    obtain ⟨fb'', last⟩ := many.granted_iff.mp ⟨fb', done⟩ 2 (by decide) (by decide)
    cases last

end Framebuffer

end Raster
