import Mathlib.Data.List.Nodup
import Raster.Proofs.Layers
import Raster.Proofs.Strides
/-!
# Rows drawn down columns

A picture is transposed by drawing each of its rows down the column of the same number
(`copyRowDown`, `copyRowsDown`). The sources are a span of one picture and the places a column of
another, whose step is a whole row and goes up or down in memory as its rows do.

In coordinates nothing of that is left. A row drawn down is a layer on its column
(`copyRowDown_eq`), so all rows in any order are those layers one upon the other
(`copyRowsDown_eq`), and because a pixel is in one column only, every pixel is drawn over once,
with the source on the other side of the diagonal (`copyRowsDown_eq_drawTransposed`). If that is a
plain copy, to do it twice gives back the picture (`pixel?_drawTransposed_copy`).
-/

namespace Raster

variable {f s : PixelFormat}

/-! ### Orders of rows -/

/-- The numbers of all rows of a picture so high, each once, in some order. -/
def EveryRow (height : UInt32) (ys : List UInt32) : Prop :=
  (ys.map UInt32.toNat).Perm (List.range height.toNat)

instance (height : UInt32) (ys : List UInt32) : Decidable (EveryRow height ys) :=
  inferInstanceAs (Decidable (List.Perm _ _))

namespace EveryRow

variable {height : UInt32} {ys : List UInt32}

theorem lt_of_mem (h : EveryRow height ys) {y : UInt32} (mem : y ∈ ys) : y < height := by
  rw [UInt32.lt_iff_toNat_lt, ← List.mem_range]
  exact h.mem_iff.mp (List.mem_map_of_mem mem)

/-- A row has its turn. -/
theorem exists_turn (h : EveryRow height ys) {k : Nat} (hk : k < height.toNat) :
    ∃ (i : Nat) (y : UInt32), ys[i]? = some y ∧ y.toNat = k := by
  obtain ⟨y, mem, number⟩ := List.mem_map.mp (h.mem_iff.mpr (List.mem_range.mpr hk))
  obtain ⟨i, there⟩ := List.mem_iff_getElem?.mp mem
  exact ⟨i, y, there, number⟩

/-- And has it only once. -/
theorem turn_inj (h : EveryRow height ys) {i j : Nat} {y : UInt32} (hi : ys[i]? = some y)
    (hj : ys[j]? = some y) : j = i := by
  have once : ys.Nodup := List.Nodup.of_map _ (h.nodup_iff.mpr List.nodup_range)
  obtain ⟨inside, -⟩ := List.getElem?_eq_some_iff.mp hj
  exact (List.getElem?_inj inside once).mp (hj.trans hi.symm)

end EveryRow

/-- One picture is as wide as the other is high, and the other way round. -/
def Geometry.Transposes (g g' : Geometry) : Prop := g.width = g'.height ∧ g.height = g'.width

/-- A row of a picture as the sources of a column. -/
def Layer.down (op : Operation f s) (src : Framebuffer s) (y : UInt32) : Layer f where
  band := ⟨y, 0, 1, src.width⟩
  change := fun _ Y d => op.result d (src.color Y y.toNat)

theorem Layer.contains_down {op : Operation f s} {src : Framebuffer s} {y : UInt32} {X Y : Nat} :
    (Layer.down op src y).band.Contains X Y ↔ y.toNat = X ∧ Y < src.width.toNat := by
  rw [down, Band.contains_column, UInt32.toNat_zero, Nat.zero_add]
  exact and_congr_right' (and_iff_right (Nat.zero_le Y))

namespace Framebuffer

/-! ### Drawing rows down -/

/-- Draw row `y` of `src` down column `y`. -/
def copyRowDown (fb : Framebuffer f) (op : Operation f s) (src : Framebuffer s) (y : UInt32) :
    Outcome Failure (Framebuffer f) :=
  match fb.columnSpan y 0 src.width, src.span 0 y src.width with
  | .ok start, .ok source => fb.copyAt op start src source src.width.toNat
  | .error e, _ => fb.refuse e
  | _, .error e => fb.refuse e

/-- Draw rows of `src` down the columns of the same numbers, in the order given. -/
def copyRowsDown (op : Operation f s) (src : Framebuffer s) :
    List UInt32 → Framebuffer f → Outcome Failure (Framebuffer f)
  | [], fb => .finished fb
  | y :: ys, fb => (fb.copyRowDown op src y).andThen (copyRowsDown op src ys)

/-- Every pixel drawn over with the pixel of `src` on the other side of the diagonal. -/
def drawTransposed (fb : Framebuffer f) (op : Operation f s) (src : Framebuffer s) :
    Framebuffer f :=
  fb.mapPixels fun x y d => op.result d (src.color y x)

variable {fb : Framebuffer f} {src : Framebuffer s}

/-! ### One row -/

/-- Both spans are there if the row is. -/
theorem spans_of_row (size : fb.Transposes src.toGeometry) {y : UInt32} (hy : y < src.height) :
    (∃ start, fb.columnSpan y 0 src.width = .ok start) ∧
      ∃ source, src.span 0 y src.width = .ok source := by
  obtain ⟨width, height⟩ := size
  constructor
  · refine (fb.isOk_columnSpan_iff y 0 src.width).mpr ⟨width ▸ hy, ?_⟩
    rw [height, UInt32.toNat_zero, Nat.zero_add]
  · refine (src.isOk_span_iff 0 y src.width).mpr ⟨hy, ?_⟩
    rw [UInt32.toNat_zero, Nat.zero_add]

/-- What it comes to is a layer on the column. -/
theorem copyRowDown_eq (op : Operation f s) (size : fb.Transposes src.toGeometry) {y : UInt32}
    (hy : y < src.height) :
    fb.copyRowDown op src y = .finished (fb.mapPixels (Layer.down op src y).paint) := by
  obtain ⟨⟨start, granted⟩, source, grantedSrc⟩ := spans_of_row size hy
  have fits : ∀ i < src.width.toNat, (start.advance i).Fits f fb.bytes.size :=
    fun i hi => (columnSpan_advance granted hi).1
  have colored : ∀ i < src.width.toNat, Buffer.pixel? s src.bytes (source.advance i) =
      some (src.color i y.toNat) := by
    intro i hi
    obtain ⟨⟨column, row⟩, fitsSrc, place⟩ := span_advance grantedSrc hi
    rw [UInt32.toNat_zero, Nat.zero_add] at column place
    rw [Buffer.pixel?_eq_cell? fitsSrc, place, ← src.pixel?_eq_cell? column row,
      src.pixel?_eq_color column row]
  rw [copyRowDown, granted, grantedSrc]
  exact draw_column granted (op.copyPixels_eq_along fits colored)

/-! ### All rows -/

/-- Row after row is layer after layer. -/
theorem copyRowsDown_eq (op : Operation f s) {ys : List UInt32} (rows : ∀ y ∈ ys, y < src.height)
    (fb : Framebuffer f) (size : fb.Transposes src.toGeometry) :
    copyRowsDown op src ys fb =
      .finished (fb.mapPixels (Layer.paintAll (ys.map (Layer.down op src)))) := by
  induction ys generalizing fb with
  | nil => rw [copyRowsDown, List.map_nil, Layer.paintAll_nil, fb.mapPixels_id]
  | cons y ys ih =>
      obtain ⟨first, rest⟩ := List.forall_mem_cons.mp rows
      rw [copyRowsDown, copyRowDown_eq op size first, Outcome.finished_andThen,
        ih rest (fb.mapPixels (Layer.down op src y).paint) size, mapPixels_mapPixels]
      rfl

/-- In whatever order the rows come, every pixel is drawn over once. -/
theorem copyRowsDown_eq_drawTransposed (op : Operation f s) {ys : List UInt32}
    (order : EveryRow src.height ys) (size : fb.Transposes src.toGeometry) :
    copyRowsDown op src ys fb = .finished (fb.drawTransposed op src) := by
  rw [copyRowsDown_eq op (fun y => order.lt_of_mem) fb size, drawTransposed]
  congr 1
  refine mapPixels_congr ?_
  intro X Y d hX hY
  obtain ⟨width, height⟩ := size
  obtain ⟨i, y, there, rfl⟩ := order.exists_turn (width ▸ hX)
  rw [height] at hY
  have layered : (ys.map (Layer.down op src))[i]? = some (Layer.down op src y) := by
    rw [List.getElem?_map, there, Option.map_some]
  -- The layers with this pixel are those on its column, and there is one turn for that.
  refine Layer.paintAll_of_only layered (Layer.contains_down.mpr ⟨rfl, hY⟩) ?_ d
  intro j other turn here
  rw [List.getElem?_map, Option.map_eq_some_iff] at turn
  obtain ⟨y', there', rfl⟩ := turn
  obtain rfl := UInt32.toNat_inj.mp (Layer.contains_down.mp here).1
  exact order.turn_inj there there'

/-! ### The transposed picture -/

/-- The whole picture is drawn over. -/
theorem drawnOver_drawTransposed (op : Operation f s) (size : fb.Transposes src.toGeometry) :
    fb.DrawnOver op fb.fullBand (fun x y => src.pixel? y x) (fb.drawTransposed op src) := by
  have whole : fb.drawTransposed op src =
      fb.mapPixels (fb.fullBand.inside fun x y d => op.result d (src.color y x)) := by
    refine mapPixels_congr ?_
    intro x y d hx hy
    rw [Band.inside_of_contains (Geometry.contains_fullBand hx hy)]
    rfl
  obtain ⟨width, height⟩ := size
  rw [whole]
  refine drawnOver_inside fb.fullBand_fits ?_
  intro x y hx hy
  exact src.pixel?_eq_color (height ▸ hy) (width ▸ hx)

/-- A plain copy turned over the diagonal shows the same pixels there. -/
theorem pixel?_drawTransposed_copy {src : Framebuffer f} (size : fb.Transposes src.toGeometry)
    (x y : Nat) : (fb.drawTransposed .copy src).pixel? x y = src.pixel? y x := by
  obtain ⟨width, height⟩ := size
  rw [drawTransposed, pixel?_mapPixels]
  by_cases inside : x < fb.width.toNat ∧ y < fb.height.toNat
  · obtain ⟨hx, hy⟩ := inside
    rw [fb.pixel?_eq_color hx hy, src.pixel?_eq_color (height ▸ hy) (width ▸ hx), Option.map_some,
      Operation.result_of_not_skips rfl, Operation.combine]
  · have insideSrc : ¬ (y < src.width.toNat ∧ x < src.height.toNat) := by
      rw [← width, ← height]
      exact fun both => inside both.symm
    rw [pixel?, if_neg inside, pixel?, if_neg insideSrc, Option.map_none]

/-- Twice over the diagonal is where one started. -/
theorem pixel?_drawTransposed_drawTransposed {src back : Framebuffer f}
    (size : fb.Transposes src.toGeometry) (sizeBack : back.Transposes fb.toGeometry) (x y : Nat) :
    (back.drawTransposed .copy (fb.drawTransposed .copy src)).pixel? x y = src.pixel? x y := by
  have turned : (fb.drawTransposed .copy src).toGeometry = fb.toGeometry := rfl
  rw [pixel?_drawTransposed_copy (turned ▸ sizeBack), pixel?_drawTransposed_copy size]

/-- If one picture is as wide as another is high and the other way round, there is a column for
every row of the other and the row fits into it. All rows drawn down their columns, in any order,
draw every pixel over by what the operation makes of it and of the source on the other side of the
diagonal, whatever the orders of rows in memory. To copy a picture so and the copy once more, into
a picture of the first size, restores every pixel. -/
theorem rows_drawn_down (op : Operation f s) (fb : Framebuffer f) (src : Framebuffer s)
    (size : fb.Transposes src.toGeometry) :
    (∀ y < src.height, (∃ start, fb.columnSpan y 0 src.width = .ok start) ∧
      ∃ source, src.span 0 y src.width = .ok source) ∧
    (∀ ys, EveryRow src.height ys → ∃ fb', copyRowsDown op src ys fb = .finished fb' ∧
      fb.DrawnOver op fb.fullBand (fun x y => src.pixel? y x) fb') ∧
    ∀ picture back : Framebuffer f, fb.Transposes picture.toGeometry →
      back.Transposes fb.toGeometry →
      ∀ ys zs, EveryRow picture.height ys → EveryRow fb.height zs →
        ∃ turned restored, copyRowsDown .copy picture ys fb = .finished turned ∧
          copyRowsDown .copy turned zs back = .finished restored ∧
          ∀ x y, restored.pixel? x y = picture.pixel? x y := by
  refine ⟨fun y => spans_of_row size, ?_, ?_⟩
  · intro ys order
    exact ⟨_, copyRowsDown_eq_drawTransposed op order size, drawnOver_drawTransposed op size⟩
  · intro picture back sizePicture sizeBack ys zs order orderBack
    exact ⟨_, _, copyRowsDown_eq_drawTransposed .copy order sizePicture,
      copyRowsDown_eq_drawTransposed .copy orderBack sizeBack,
      pixel?_drawTransposed_drawTransposed sizePicture sizeBack⟩

/-- Three rows of two coverages, stored bottom up and drawn down as ink with the last row first;
and three rows of two pixels through the same picture and back. -/
theorem rows_drawn_down_ink :
    let ink : Operation .rgb565 .gray8 := .ink (.rgb565 0xFFFF)
    let fb : Framebuffer .rgb565 :=
      ⟨⟨3, 2, .topDown⟩, #[1, 2, 3, 4, 5, 6, 7, 8, 9, 10, 11, 12], rfl, by decide⟩
    let src : Framebuffer .gray8 :=
      ⟨⟨2, 3, .bottomUp⟩, #[0, 50, 100, 150, 200, 255], rfl, by decide⟩
    let picture : Framebuffer .rgb565 :=
      ⟨⟨2, 3, .bottomUp⟩, #[1, 0, 2, 0, 3, 0, 4, 0, 5, 0, 6, 0], rfl, by decide⟩
    (∃ fb', copyRowsDown ink src [2, 0, 1] fb = .finished fb' ∧
      fb.DrawnOver ink fb.fullBand (fun x y => src.pixel? y x) fb') ∧
    ∃ turned restored, copyRowsDown .copy picture [1, 2, 0] fb = .finished turned ∧
      copyRowsDown .copy turned [1, 0] picture = .finished restored ∧
      ∀ x y, restored.pixel? x y = picture.pixel? x y := by
  intro ink fb src picture
  obtain ⟨-, drawn, restored⟩ := rows_drawn_down ink fb src ⟨rfl, rfl⟩
  exact ⟨drawn [2, 0, 1] (by decide), restored picture picture ⟨rfl, rfl⟩ ⟨rfl, rfl⟩ [1, 2, 0]
    [1, 0] (by decide) (by decide)⟩

end Framebuffer

end Raster
