import Raster.Proofs.Layers
import Raster.Proofs.Making
import Raster.Proofs.RowByRow
import Raster.TestCard.Pools
/-!
# What sheets show

A picture `Shows` a function of the coordinates if it has the color that the function says in
every pixel. The three sheets show what they are meant to, whatever their size:

* the ramp is made of bytes, the same row over and over (`Sheet.ramp_shows`);
* the board is drawn by two loops, one cell of one row after the other. The cells of a row add up
  to the row and the rows to the board (`Sheet.checker_shows`);
* the sprite is two strokes, one on top of the other (`Sheet.spriteOnPools_shows`).

Strokes that go to bands of one picture are layers, and it is the same to draw them row by row
and to draw them on pools (`Stroke.foldlM_draw`).
-/

namespace Raster

variable {f s : PixelFormat} {g : Geometry}

/-- The framebuffer has geometry `g` and in each pixel the color that `shown` says. -/
structure Framebuffer.Shows (fb : Framebuffer f) (g : Geometry) (shown : Nat → Nat → Color f) :
    Prop where
  geometry : fb.toGeometry = g
  pixels : ∀ x y, x < g.width.toNat → y < g.height.toNat → fb.pixel? x y = some (shown x y)

namespace Framebuffer

variable {fb : Framebuffer f} {shown : Nat → Nat → Color f}

theorem Shows.size (h : fb.Shows g shown) : fb.width = g.width ∧ fb.height = g.height := by
  rw [h.geometry]
  exact ⟨rfl, rfl⟩

theorem Shows.color (h : fb.Shows g shown) {x y : Nat} (hx : x < g.width.toNat)
    (hy : y < g.height.toNat) : fb.color x y = shown x y := by
  rw [Framebuffer.color, h.pixels x y hx hy, Option.getD_some]

/-- Pixels that are changed to colors which do not depend on what was there show these. -/
theorem shows_mapPixels {change : Nat → Nat → Color f → Color f} (geometry : fb.toGeometry = g)
    (same : ∀ x y d, x < g.width.toNat → y < g.height.toNat → change x y d = shown x y) :
    (fb.mapPixels change).Shows g shown where
  geometry := geometry
  pixels := by
    subst geometry
    intro x y hx hy
    rw [fb.pixel?_mapPixels_of_lt change hx hy, same x y _ hx hy]

end Framebuffer

/-! ### Strokes -/

namespace Stroke

/-- What a stroke makes of a pixel that it goes over. -/
def change (stroke : Stroke f) (x y : Nat) (d : Color f) : Color f :=
  match stroke with
  | .fill op c => op.result d c
  | .copy op sheet => op.result d (sheet.color x y)

/-- A stroke on a band. -/
def layer (band : Band) (stroke : Stroke f) : Layer f := ⟨band, stroke.change⟩

/-- Strokes on their bands. -/
def layers (strokes : List (Band × Stroke f)) : List (Layer f) :=
  strokes.map fun (band, stroke) => layer band stroke

/-- The stroke's sheet, if it has one, is of the size of the picture. -/
def Sized (g : Geometry) : Stroke f → Prop
  | .fill _ _ => True
  | .copy _ sheet => sheet.width = g.width ∧ sheet.height = g.height

/-- A sheet is copied onto its own places. -/
theorem paint_copy (op : Operation f s) (band : Band) (sheet : Framebuffer s) :
    (Layer.copy op band sheet band.x.toNat band.y.toNat).paint =
      (layer band (.copy op sheet)).paint := by
  funext x y d
  by_cases here : band.Contains x y
  · have column : band.x.toNat + (x - band.x.toNat) = x := Nat.add_sub_cancel' here.1.1
    have row : band.y.toNat + (y - band.y.toNat) = y := Nat.add_sub_cancel' here.2.1
    rw [Layer.paint_of_contains here, Layer.paint_of_contains here]
    simp only [Layer.copy, layer, change, column, row]
  · rw [Layer.paint_of_not_contains here, Layer.paint_of_not_contains here]

/-- A stroke is granted on every band of the picture. -/
theorem answers_drawing {band : Band} {stroke : Stroke f} {threading : Threading}
    (fits : band.Fits g.width g.height) (sized : stroke.Sized g)
    (threads : threading.threads ≠ some 0) :
    (stroke.drawing band threading).Answers g (.ok ()) (layer band stroke) := by
  cases stroke with
  | fill op c => exact (Drawing.manned_fillRows op c threading fits).answers threads
  | copy op sheet =>
      have fitsSheet : (band.movedTo band.x band.y).Fits sheet.width sheet.height := by
        rw [band.movedTo_self, sized.1, sized.2]
        exact fits
      have answers := (Drawing.manned_copyRows op threading fits fitsSheet).answers threads
      rwa [Drawing.Answers, paint_copy] at answers

/-- Strokes are layers, one upon the other. -/
theorem inTurn_drawings {strokes : List (Band × Stroke f)} {threading : Threading}
    (fit : ∀ band stroke, (band, stroke) ∈ strokes →
      band.Fits g.width g.height ∧ stroke.Sized g)
    (threads : threading.threads ≠ some 0) (pools : Nat → Pool) {fb : Framebuffer f}
    (geometry : fb.toGeometry = g) :
    Drawing.inTurn pools (drawings strokes threading) fb =
      .finished (fb.mapPixels (Layer.paintAll (layers strokes))) := by
  refine Drawing.inTurn_eq_mapPixels ?_ pools fb geometry
  rw [drawings, layers, List.forall₂_map_left_iff, List.forall₂_map_right_iff, List.forall₂_same]
  rintro ⟨band, stroke⟩ mem
  obtain ⟨fits, sized⟩ := fit band stroke mem
  exact answers_drawing fits sized threads

/-- To draw a stroke row by row is to draw it on a pool. -/
theorem draw_eq_outcome (pool : Pool) (stroke : Stroke f) (band : Band) (threading : Threading)
    (fb : Framebuffer f) :
    stroke.draw band threading fb = (stroke.drawing band threading).outcome pool fb := by
  cases stroke with
  | fill op c =>
      rw [draw, drawing, Drawing.outcome, fb.fillRows_eq, fb.fillRowsOn_eq]
  | copy op sheet =>
      rw [draw, drawing, Drawing.outcome, fb.copyRows_eq, fb.copyRowsOn_eq]

/-- And so it is for one stroke after the other. -/
theorem foldlM_draw (pools : Nat → Pool) (strokes : List (Band × Stroke f))
    (threading : Threading) (fb : Framebuffer f) :
    strokes.foldlM (fun fb (band, stroke) => (stroke.draw band threading fb).toExcept) fb =
      (Drawing.inTurn pools (drawings strokes threading) fb).toExcept := by
  induction strokes generalizing pools fb with
  | nil => rfl
  | cons first rest ih =>
      obtain ⟨band, stroke⟩ := first
      have here := stroke.draw_eq_outcome (pools 0) band threading fb
      simp only [List.foldlM_cons, drawings, List.map_cons, Drawing.inTurn, here]
      cases (stroke.drawing band threading).outcome (pools 0) fb with
      | finished fb' => exact ih _ fb'
      | stopped e fb' => rfl

end Stroke

namespace Sheet

/-! ### The ramp -/

/-- The same bytes over and over. -/
theorem getElem?_rows (row : Buffer) {n x y : Nat} (hx : x < row.size) (hy : y < n) :
    (Array.replicate n row).flatten[y * row.size + x]? = row[x]? := by
  induction n with
  | zero => omega
  | succ n ih =>
      have size : (Array.replicate n row).flatten.size = n * row.size := by
        rw [Array.size_flatten, Array.map_replicate, Array.sum_replicate_nat]
      rw [Array.replicate_succ, Array.flatten_push]
      rcases Nat.lt_succ_iff_lt_or_eq.mp hy with earlier | rfl
      · have before := Buffer.place_end_le row.size earlier
        rw [Array.getElem?_append_left (by omega), ih earlier]
      · rw [Array.getElem?_append_right (by omega), size, Nat.add_sub_cancel_left]

/-- The coverage in every pixel, which is that of its column. -/
theorem ramp_shows {width height : UInt32}
    (memory : width.toNat * height.toNat ≤ maxAllocation) :
    ∃ sheet, ramp width height = .ok sheet ∧ sheet.Shows ⟨width, height, .topDown⟩
      fun x _ => .gray (coverage width.toNat x) := by
  have row : (rampRow width.toNat).size = width.toNat := Array.size_ofFn
  have size : (Array.replicate height.toNat (rampRow width.toNat)).flatten.size =
      (⟨width, height, .topDown⟩ : Geometry).byteLength .gray8 := by
    rw [Array.size_flatten, Array.map_replicate, Array.sum_replicate_nat, row,
      Geometry.byteLength_eq, PixelFormat.bytesPerPixel_gray8, Nat.mul_one]
  have small : (Array.replicate height.toNat (rampRow width.toNat)).flatten.size < UInt64.size := by
    have limit : maxAllocation < UInt64.size := by decide
    rw [size, Geometry.byteLength, PixelFormat.bytesPerPixel_gray8, Nat.mul_one]
    exact Nat.lt_of_le_of_lt memory limit
  refine ⟨⟨⟨width, height, .topDown⟩, _, size, small⟩, ?_, rfl, ?_⟩
  · rw [ramp, if_pos memory]
    exact congrArg (Except.mapError Failure.error) (Framebuffer.ofBytes_eq_ok size small)
  · intro x y hx hy
    have byte := getElem?_rows (rampRow width.toNat) (row.symm ▸ hx) hy
    rw [row, rampRow, Array.getElem?_ofFn, dif_pos hx] at byte
    rw [Framebuffer.pixel?_eq_cell? _ hx hy]
    refine Buffer.cell?_of_getElem? ?_
    intro k hk
    -- The pixel has one byte only.
    obtain rfl : k = 0 := Nat.lt_one_iff.mp hk
    rw [PixelFormat.bytesPerPixel_gray8, Nat.mul_one]
    exact byte

/-! ### The board -/

/-- The color of a pixel of the board is that of its cell. -/
def boardColor (x y : Nat) : Color .gray8 := cellColor (x / cellSize) (y / cellSize)

section Board

variable {width height : UInt32} {board : Framebuffer .gray8} {y : Nat}

/-- The pixels of a cell in one row. The last cell may be cut off. -/
def cellSpan (width : UInt32) (y i : Nat) : Band :=
  .ofSpan (.ofNat (i * cellSize)) (.ofNat y)
    (.ofNat (min cellSize (width.toNat - i * cellSize)))

theorem toNat_cellSpan {i : Nat} (hy : y < height.toNat) (hi : i * cellSize < width.toNat) :
    (cellSpan width y i).x.toNat = i * cellSize ∧ (cellSpan width y i).y.toNat = y ∧
      (cellSpan width y i).width.toNat = min cellSize (width.toNat - i * cellSize) := by
  have columns := width.toNat_lt_size
  have rows := height.toNat_lt_size
  refine ⟨UInt32.toNat_ofNat_of_lt' ?_, UInt32.toNat_ofNat_of_lt' ?_,
    UInt32.toNat_ofNat_of_lt' ?_⟩
  · omega
  · omega
  · omega

theorem contains_cellSpan {i X Y : Nat} (hy : y < height.toNat)
    (hi : i * cellSize < width.toNat) :
    (cellSpan width y i).Contains X Y ↔ Y = y ∧ X / cellSize = i ∧ X < width.toNat := by
  obtain ⟨left, row, count⟩ := toNat_cellSpan hy hi
  have one : (cellSpan width y i).height.toNat = 1 := rfl
  simp only [Band.Contains, left, row, count, one]
  simp only [cellSize]
  omega

/-- Drawing a cell that starts inside the board draws its pixels in one row. -/
theorem drawCell_eq {i : Nat} (geometry : board.toGeometry = ⟨width, height, .topDown⟩)
    (hy : y < height.toNat) (hi : i * cellSize < width.toNat) :
    drawCell y i board = .finished (board.mapPixels fun X Y d =>
      if Y = y ∧ X / cellSize = i ∧ X < width.toNat then boardColor X Y else d) := by
  have columns : board.width = width := by rw [geometry]
  have rows : board.height = height := by rw [geometry]
  have granted : board.checkSpan (cellSpan width y i).x (cellSpan width y i).y
      (cellSpan width y i).width = .ok () := by
    obtain ⟨left, row, count⟩ := toNat_cellSpan hy hi
    rw [board.checkSpan_eq_ok_iff, UInt32.lt_iff_toNat_lt, left, row, count, columns, rows]
    exact ⟨hy, by omega⟩
  have change : (Layer.fill .copy (cellSpan width y i) (cellColor i (y / cellSize))).paint =
      fun X Y d => if Y = y ∧ X / cellSize = i ∧ X < width.toNat then boardColor X Y else d := by
    funext X Y d
    have here := contains_cellSpan hy hi (X := X) (Y := Y)
    by_cases drawn : Y = y ∧ X / cellSize = i ∧ X < width.toNat
    · rw [Layer.paint_of_contains (here.mpr drawn), if_pos drawn, boardColor, drawn.1, drawn.2.1]
      rfl
    · rw [Layer.paint_of_not_contains fun within => drawn (here.mp within), if_neg drawn]
  have answer := Drawing.answers_fillSpan .copy (cellSpan width y i).x (cellSpan width y i).y
    (cellSpan width y i).width (cellColor i (y / cellSize)) default board rfl
  have span : Band.ofSpan (cellSpan width y i).x (cellSpan width y i).y
      (cellSpan width y i).width = cellSpan width y i := rfl
  rw [granted, span, change] at answer
  rw [drawCell, columns]
  exact answer

/-- Drawing the cells of a row draws the row. -/
theorem sweep_drawCell (geometry : board.toGeometry = ⟨width, height, .topDown⟩)
    (hy : y < height.toNat) :
    Outcome.sweep (drawCell y) 0 ((width.toNat + cellSize - 1) / cellSize) board =
      .finished (board.mapPixels fun X Y d =>
        if Y = y ∧ X < width.toNat then boardColor X Y else d) := by
  have sweep : Outcome.sweep (drawCell y) 0 ((width.toNat + cellSize - 1) / cellSize) board =
      .finished (board.mapPixels fun X Y d =>
        if Y = y ∧ X < min (((width.toNat + cellSize - 1) / cellSize) * cellSize) width.toNat then
          boardColor X Y else d) := by
    refine Framebuffer.sweep_eq_mapPixels
      (fun i X Y d => if Y = y ∧ X / cellSize = i ∧ X < width.toNat then boardColor X Y else d)
      (fun k X Y d => if Y = y ∧ X < min (k * cellSize) width.toNat then boardColor X Y else d)
      ?_ ?_ ?_
    · intro X Y d
      exact if_neg (by omega)
    · intro k hk X Y d
      by_cases here : Y = y ∧ X / cellSize = k ∧ X < width.toNat
      · rw [if_pos here, if_pos]
        simp only [cellSize] at here ⊢
        omega
      · rw [if_neg here]
        congr 1
        simp only [cellSize, eq_iff_iff] at here ⊢
        omega
    · intro k hk board' same
      refine drawCell_eq (same.trans geometry) hy ?_
      simp only [cellSize] at hk ⊢
      omega
  have columns : min (((width.toNat + cellSize - 1) / cellSize) * cellSize) width.toNat =
      width.toNat := by
    simp only [cellSize]
    omega
  rwa [columns] at sweep

/-- The color of its cell in every pixel. -/
theorem checker_shows (memory : width.toNat * height.toNat ≤ maxAllocation) :
    ∃ sheet, checker width height = .ok sheet ∧
      sheet.Shows ⟨width, height, .topDown⟩ boardColor := by
  obtain ⟨blank, made, geometry, -⟩ := Framebuffer.blank_of_le (f := .gray8)
    (g := ⟨width, height, .topDown⟩) (by
      rw [Geometry.byteLength, PixelFormat.bytesPerPixel_gray8, Nat.mul_one]
      exact memory)
  have rows : Outcome.sweep (fun y board => Outcome.sweep (drawCell y) 0
        ((width.toNat + cellSize - 1) / cellSize) board) 0 height.toNat blank =
      .finished (blank.mapPixels fun X Y d =>
        if Y < height.toNat ∧ X < width.toNat then boardColor X Y else d) := by
    refine Framebuffer.sweep_eq_mapPixels
      (fun y X Y d => if Y = y ∧ X < width.toNat then boardColor X Y else d)
      (fun n X Y d => if Y < n ∧ X < width.toNat then boardColor X Y else d) ?_ ?_ ?_
    · intro X Y d
      exact if_neg (by omega)
    · intro k hk X Y d
      by_cases here : Y = k ∧ X < width.toNat
      · rw [if_pos here, if_pos (by omega)]
      · rw [if_neg here]
        congr 1
        simp only [eq_iff_iff]
        omega
    · intro k hk board' same
      exact sweep_drawCell (same.trans geometry) hk
  have drawn : checker width height = .ok (blank.mapPixels fun X Y d =>
      if Y < height.toNat ∧ X < width.toNat then boardColor X Y else d) := by
    rw [checker, made]
    exact congrArg Outcome.toExcept rows
  exact ⟨_, drawn, Framebuffer.shows_mapPixels geometry fun x y d hx hy => if_pos ⟨hy, hx⟩⟩

end Board

/-! ### The sprite -/

/-- The color of a sprite in a column. -/
def spriteColor (f : PixelFormat) (width x : Nat) : Color f :=
  if width / 4 ≤ x ∧ x < width / 4 + width / 2 then blockColor f else keyColor f

/-- Drawn row by row the sprite is what it is on pools. -/
theorem sprite_eq_onPools (pools : Nat → Pool) (f : PixelFormat) (width height : UInt32)
    (threading : Threading) :
    sprite f width height threading = spriteOnPools pools f width height threading := by
  rw [sprite, spriteOnPools]
  cases made : Framebuffer.blank f ⟨width, height, .topDown⟩ with
  | error e => rfl
  | ok sheet =>
      have whole : sheet.fullBand = ⟨0, 0, width, height⟩ := by
        rw [Framebuffer.toGeometry_of_blank made]
        rfl
      have drawn := Stroke.foldlM_draw pools (spriteStrokes f width height) threading sheet
      simp only [spriteStrokes, List.foldlM_cons, List.foldlM_nil, bind_pure] at drawn
      show ((Stroke.fill .copy (keyColor f)).draw sheet.fullBand threading sheet).toExcept >>= _ = _
      rw [whole]
      exact drawn

theorem contains_blockBand {width height : UInt32} {x y : Nat} (hy : y < height.toNat) :
    (blockBand width height).Contains x y ↔
      width.toNat / 4 ≤ x ∧ x < width.toNat / 4 + width.toNat / 2 := by
  simp only [Band.Contains, blockBand, UInt32.toNat_div, UInt32.reduceToNat]
  omega

/-- The block in its columns, and the key color beside it. -/
theorem spriteOnPools_shows (pools : Nat → Pool) (f : PixelFormat) {width height : UInt32}
    {threading : Threading}
    (memory : (⟨width, height, .topDown⟩ : Geometry).byteLength f ≤ maxAllocation)
    (threads : threading.threads ≠ some 0) :
    ∃ sheet, spriteOnPools pools f width height threading = .ok sheet ∧
      sheet.Shows ⟨width, height, .topDown⟩ fun x _ => spriteColor f width.toNat x := by
  obtain ⟨blank, made, geometry, -⟩ := Framebuffer.blank_of_le memory
  have block : (blockBand width height).Fits width height := by
    simp only [Band.Fits, blockBand, UInt32.toNat_div, UInt32.reduceToNat]
    omega
  have fit : ∀ band stroke, (band, stroke) ∈ spriteStrokes f width height →
      band.Fits width height ∧ stroke.Sized ⟨width, height, .topDown⟩ := by
    intro band stroke mem
    rw [spriteStrokes, List.mem_cons, List.mem_singleton, Prod.mk.injEq, Prod.mk.injEq] at mem
    obtain ⟨rfl, rfl⟩ | ⟨rfl, rfl⟩ := mem
    · exact ⟨(⟨width, height, .topDown⟩ : Geometry).fullBand_fits, trivial⟩
    · exact ⟨block, trivial⟩
  have drawn : spriteOnPools pools f width height threading = .ok (blank.mapPixels
      (Layer.paintAll (Stroke.layers (spriteStrokes f width height)))) := by
    rw [spriteOnPools, made]
    exact congrArg Outcome.toExcept (Stroke.inTurn_drawings fit threads pools geometry)
  refine ⟨_, drawn, Framebuffer.shows_mapPixels geometry ?_⟩
  intro x y d hx hy
  have whole := Geometry.contains_fullBand hx hy
  have key : (Stroke.layer ⟨0, 0, width, height⟩ (.fill .copy (keyColor f))).paint x y d =
      keyColor f := Layer.paint_of_contains whole d
  show (Stroke.layer (blockBand width height) (.fill .copy (blockColor f))).paint x y
    ((Stroke.layer ⟨0, 0, width, height⟩ (.fill .copy (keyColor f))).paint x y d) =
      spriteColor f width.toNat x
  rw [key]
  exact if_congr (contains_blockBand hy) rfl rfl

end Sheet

end Raster
