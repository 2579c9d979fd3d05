import Raster.Proofs.Requests
import Raster.Proofs.Table
/-!
# Batches of rows

A band that is filled or copied is drawn over pixel by pixel, whatever the orders of rows in
the pictures: each pixel by the table of operations, with the source from the same place of
the band it is taken from, and no pixel outside the band (`rows_drawn_over`).

If the rows are given to a pool, nothing of that shows in the result
(`rows_independent_of_pool`). A pool may schedule the single pixels in any way at all.
-/

namespace Raster

variable {f s : PixelFormat}

namespace Framebuffer

/-- `fb'` is `fb` with a band drawn over, where `source` has the sources of the pixels of the
band, by column and row. -/
structure DrawnOver (fb : Framebuffer f) (op : Operation f s) (band : Band)
    (source : Nat → Nat → Option (Color s)) (fb' : Framebuffer f) : Prop where
  /-- It is a picture of the same size with the same order of rows. -/
  geometry : fb'.toGeometry = fb.toGeometry
  /-- Every pixel of the band is drawn over. -/
  inside : ∀ dx dy, dx < band.width.toNat → dy < band.height.toNat →
    ∃ d c r, fb.pixel? (band.x.toNat + dx) (band.y.toNat + dy) = some d ∧
      source dx dy = some c ∧
      fb'.pixel? (band.x.toNat + dx) (band.y.toNat + dy) = some r ∧ op.Draws d c r
  /-- All others are as before. -/
  outside : ∀ x y, ¬ band.Contains x y → fb'.pixel? x y = fb.pixel? x y

/-- To change the pixels of a band to what an operation makes of them is to draw it over. -/
theorem drawnOver_inside {fb : Framebuffer f} {op : Operation f s} {band : Band}
    {source : Nat → Nat → Option (Color s)} {colors : Nat → Nat → Color s}
    (fits : band.Fits fb.width fb.height)
    (all : ∀ dx dy, dx < band.width.toNat → dy < band.height.toNat →
      source dx dy = some (colors dx dy)) :
    DrawnOver fb op band source
      (fb.mapPixels (band.inside fun dx dy d => op.result d (colors dx dy))) where
  geometry := rfl
  inside := by
    intro dx dy hx hy
    obtain ⟨right, bottom⟩ := fits
    have there := fb.pixel?_eq_color (x := band.x.toNat + dx) (y := band.y.toNat + dy)
      (by omega) (by omega)
    have within : band.Contains (band.x.toNat + dx) (band.y.toNat + dy) := by
      simp only [Band.Contains]
      omega
    refine ⟨_, _, _, there, all dx dy hx hy, ?_, op.draws_result _ _⟩
    rw [pixel?_mapPixels, there, Option.map_some, Band.inside_of_contains within,
      Nat.add_sub_cancel_left, Nat.add_sub_cancel_left]
  outside := by
    intro x y outside
    have same : band.inside (fun dx dy d => op.result d (colors dx dy)) x y = fun d => d := by
      funext d
      exact Band.inside_of_not_contains outside
    rw [pixel?_mapPixels, same, Option.map_id']

/-- Filling and copying a band that lies in its picture draws it over, on whatever pool. -/
theorem rows_drawn_over (pool : Pool) (fb : Framebuffer f) (op : Operation f s) (band : Band)
    (c : Color s) (src : Framebuffer s) (sx sy : UInt32) (threading : Threading)
    (fits : band.Fits fb.width fb.height) (threads : threading.threads ≠ some 0) :
    (∃ fb', fb.fillRowsOn pool op band c threading = .finished fb' ∧
      DrawnOver fb op band (fun _ _ => some c) fb') ∧
    ((band.movedTo sx sy).Fits src.width src.height →
      ∃ fb', fb.copyRowsOn pool op band src sx sy threading = .finished fb' ∧
        DrawnOver fb op band
          (fun dx dy => src.pixel? (sx.toNat + dx) (sy.toNat + dy)) fb') := by
  constructor
  · refine ⟨_, ?_, drawnOver_inside fits fun _ _ _ _ => rfl⟩
    rw [fillRowsOn_eq, (Asks.checkFill ..).passes fits threads]
    rfl
  · intro fitsSrc
    have right : sx.toNat + band.width.toNat ≤ src.width.toNat := fitsSrc.1
    have bottom : sy.toNat + band.height.toNat ≤ src.height.toNat := fitsSrc.2
    refine ⟨_, ?_, drawnOver_inside fits fun dx dy hx hy =>
      src.pixel?_eq_color (by omega) (by omega)⟩
    rw [copyRowsOn_eq, (Asks.checkCopy ..).passes ⟨fits, fitsSrc⟩ threads]
    rfl

/-- The right column of a small picture, stored from the bottom up, blended on two threads with
the rows of one that is stored from the top down. -/
theorem rows_drawn_over_column :
    let fb : Framebuffer .gray8 := ⟨⟨2, 2, .bottomUp⟩, #[1, 2, 3, 4], rfl, by decide⟩
    let src : Framebuffer .gray8 := ⟨⟨1, 2, .topDown⟩, #[10, 20], rfl, by decide⟩
    let op : Operation .gray8 .gray8 := .blend 128
    let threading : Threading := ⟨true, some 2, 1⟩
    (∃ fb', fb.fillRowsOn default op ⟨1, 0, 1, 2⟩ (.gray 200) threading = .finished fb' ∧
      DrawnOver fb op ⟨1, 0, 1, 2⟩ (fun _ _ => some (.gray 200)) fb') ∧
    ∃ fb', fb.copyRowsOn default op ⟨1, 0, 1, 2⟩ src 0 0 threading = .finished fb' ∧
      DrawnOver fb op ⟨1, 0, 1, 2⟩ (fun dx dy => src.pixel? (0 + dx) (0 + dy)) fb' := by
  intro fb src op threading
  have law := rows_drawn_over default fb op ⟨1, 0, 1, 2⟩ (.gray 200) src 0 0 threading
    (by decide) (by decide)
  exact ⟨law.1, law.2 (by decide)⟩

/-- Filling and copying a band ends alike whether it is done row after row or on a pool, and
whatever the pool: each of its rows is a task, the steps of a task are its pixels from left to
right, and the steps of all tasks may follow each other in any order. Rows dealt out to workers in
groups are one such order (`Schedule.ofWorkers`). The bytes are the same, and so is the reason if
the request is refused. A band that lies in its picture is filled, and copied from one that lies in
its own, unless the pool is to have no threads. -/
theorem rows_independent_of_pool (fb : Framebuffer f) (op : Operation f s) (band : Band)
    (c : Color s) (src : Framebuffer s) (sx sy : UInt32) (threading : Threading) :
    (∀ pool, fb.fillRowsOn pool op band c { threading with parallel := true } =
      fb.fillRows op band c threading) ∧
    (∀ pool, fb.copyRowsOn pool op band src sx sy { threading with parallel := true } =
      fb.copyRows op band src sx sy threading) ∧
    (band.Fits fb.width fb.height → threading.threads ≠ some 0 →
      (∃ fb', fb.fillRows op band c threading = .finished fb') ∧
      ((band.movedTo sx sy).Fits src.width src.height →
        ∃ fb', fb.copyRows op band src sx sy threading = .finished fb')) := by
  refine ⟨fun pool => ?_, fun pool => ?_, ?_⟩
  · -- Whether rows are shared out has no part in the check.
    rw [fillRowsOn_eq, fillRows_eq]
    rfl
  · rw [copyRowsOn_eq, copyRows_eq]
    rfl
  · intro fits threads
    refine ⟨?_, ?_⟩
    · rw [fillRows_eq, (Asks.checkFill ..).passes fits threads]
      exact ⟨_, rfl⟩
    · intro fitsSrc
      rw [copyRows_eq, (Asks.checkCopy ..).passes ⟨fits, fitsSrc⟩ threads]
      exact ⟨_, rfl⟩

/-- A whole picture that is stored from the bottom up, inked with the rows of a mask that is
stored from the top down. -/
theorem rows_independent_of_pool_mask :
    let fb : Framebuffer .rgb565 := ⟨⟨1, 2, .bottomUp⟩, #[1, 2, 3, 4], rfl, by decide⟩
    let mask : Framebuffer .gray8 := ⟨⟨1, 2, .topDown⟩, #[10, 20], rfl, by decide⟩
    let op : Operation .rgb565 .gray8 := .ink (.rgb565 0xffff)
    let threading : Threading := ⟨true, none, 0⟩
    (∃ fb', fb.fillRows op ⟨0, 0, 1, 2⟩ (.gray 7) threading = .finished fb' ∧
      ∀ pool, fb.fillRowsOn pool op ⟨0, 0, 1, 2⟩ (.gray 7) threading = .finished fb') ∧
    ∃ fb', fb.copyRows op ⟨0, 0, 1, 2⟩ mask 0 0 threading = .finished fb' ∧
      ∀ pool, fb.copyRowsOn pool op ⟨0, 0, 1, 2⟩ mask 0 0 threading = .finished fb' := by
  intro fb mask op threading
  obtain ⟨fills, copies, granted⟩ :=
    rows_independent_of_pool fb op ⟨0, 0, 1, 2⟩ (.gray 7) mask 0 0 threading
  obtain ⟨⟨filled, fillEnds⟩, fromMask⟩ := granted (by decide) (by decide)
  obtain ⟨inked, copyEnds⟩ := fromMask (by decide)
  exact ⟨⟨filled, fillEnds, fun pool => (fills pool).trans fillEnds⟩,
    inked, copyEnds, fun pool => (copies pool).trans copyEnds⟩

end Framebuffer

end Raster
