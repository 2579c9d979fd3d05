import Mathlib.Data.Set.Function
import Raster.History
import Raster.Proofs.Making
import Raster.Proofs.Requests
/-!
# All addresses agree

A pixel can be addressed by its coordinates, by going along its row or down its column, from
anywhere in a span, and as a part of its row's bytes. All these ways are computed on their own,
with a step of minus the width when rows lie from the bottom up, and all of them lead to the
same place (`Framebuffer.Addressing`). There is a place for every pixel and a pixel for every
place.

Nothing of that depends on the bytes. Geometries never change (`Drawing.toGeometry_state_outcome`),
and so it holds of a framebuffer throughout its history (`addressing_of_history`).
-/

namespace Raster

variable {f : PixelFormat}

/-! ### Places -/

namespace Geometry

/-- The index that the coordinates of a pixel lead to, with a fault if there is no pixel. -/
def index? (g : Geometry) (x y : UInt32) : Except Fault Nat :=
  (g.location? x y).map (·.index.toNat)

/-- There is a location for every pixel, and only for pixels. -/
theorem location?_eq_ok_iff (g : Geometry) {x y : UInt32} {l : Location} :
    g.location? x y = .ok l ↔ (x < g.width ∧ y < g.height) ∧ l = g.locate x.toNat y.toNat := by
  constructor
  · intro found
    have inside : x < g.width ∧ y < g.height := by
      rw [location?] at found
      split at found
      · next row =>
          split at found
          · next column => exact ⟨column, row⟩
          · cases found
      · cases found
    rw [g.location?_eq_ok inside.1 inside.2] at found
    exact ⟨inside, (Except.ok.inj found).symm⟩
  · rintro ⟨⟨column, row⟩, rfl⟩
    exact g.location?_eq_ok column row

theorem index?_eq_ok (g : Geometry) {x y : UInt32} (hx : x < g.width) (hy : y < g.height) :
    g.index? x y = .ok (g.place x.toNat y.toNat) := by
  have small : g.place x.toNat y.toNat < UInt64.size :=
    g.index_lt_size (g.storageRow_lt (UInt32.lt_iff_toNat_lt.mp hy)) (UInt32.lt_iff_toNat_lt.mp hx)
  have index : (g.locate x.toNat y.toNat).index.toNat = g.place x.toNat y.toNat :=
    UInt64.toNat_ofNat_of_lt small
  rw [index?, g.location?_eq_ok hx hy, ← index]
  rfl

/-- Every place of the picture is that of a pixel. -/
theorem exists_place_eq (g : Geometry) {k : Nat} (hk : k < g.width.toNat * g.height.toNat) :
    ∃ x y : UInt32, (x < g.width ∧ y < g.height) ∧ g.place x.toNat y.toNat = k := by
  have column : k % g.width.toNat < g.width.toNat :=
    Nat.mod_lt _ (Nat.pos_of_mul_pos_right (Nat.zero_lt_of_lt hk))
  have row : k / g.width.toNat < g.height.toNat := Nat.div_lt_of_lt_mul hk
  obtain ⟨x, hx⟩ : ∃ x : UInt32, x.toNat = k % g.width.toNat :=
    ⟨_, UInt32.toNat_ofNat_of_lt (Nat.lt_trans column g.width.toNat_lt_size)⟩
  obtain ⟨y, hy⟩ : ∃ y : UInt32, y.toNat = g.storageRow (k / g.width.toNat) :=
    ⟨_, UInt32.toNat_ofNat_of_lt (Nat.lt_trans (g.storageRow_lt row) g.height.toNat_lt_size)⟩
  refine ⟨x, y, ?_, ?_⟩
  · rw [UInt32.lt_iff_toNat_lt, UInt32.lt_iff_toNat_lt, hx, hy]
    exact ⟨column, g.storageRow_lt row⟩
  · rw [hx, hy, g.place_of_lt row]

/-- And it is the place of no other. -/
theorem index?_bijOn (g : Geometry) :
    Set.BijOn (fun p : UInt32 × UInt32 => g.index? p.1 p.2)
      {p | p.1 < g.width ∧ p.2 < g.height}
      (Except.ok '' {k | k < g.width.toNat * g.height.toNat}) := by
  refine ⟨?_, ?_, ?_⟩
  · rintro ⟨x, y⟩ ⟨hx, hy⟩
    refine ⟨g.place x.toNat y.toNat, ?_, (g.index?_eq_ok hx hy).symm⟩
    rw [UInt32.lt_iff_toNat_lt] at hx hy
    exact g.index_lt (g.storageRow_lt hy) hx
  · rintro ⟨x, y⟩ ⟨hx, hy⟩ ⟨X, Y⟩ ⟨hX, hY⟩ same
    dsimp only at hx hy hX hY same
    rw [g.index?_eq_ok hx hy, g.index?_eq_ok hX hY] at same
    rw [UInt32.lt_iff_toNat_lt] at hx hy hX hY
    obtain ⟨column, row⟩ := (g.place_inj hX hY hx hy).mp (Except.ok.inj same)
    exact Prod.ext (UInt32.toNat_inj.mp column) (UInt32.toNat_inj.mp row)
  · rintro _ ⟨k, hk, rfl⟩
    obtain ⟨x, y, inside, rfl⟩ := g.exists_place_eq hk
    exact ⟨(x, y), inside, g.index?_eq_ok inside.1 inside.2⟩

/-- Along a row, one place after the other is that of the next pixel. -/
theorem locate_advance (g : Geometry) (x n y : Nat) :
    (g.locate x y).advance n = g.locate (x + n) y := by
  show (Location.forward (UInt64.ofNat (g.place x y))).advance n =
    .forward (UInt64.ofNat (g.place (x + n) y))
  rw [Location.forward_advance, place_add]

/-- Down a column, one place after the other is that of the next pixel. -/
theorem index_locateColumn_advance (g : Geometry) (x : Nat) {y : Nat} (hy : y < g.height.toNat) :
    ((g.locateColumn x).advance y).index = (g.locate x y).index := by
  show UInt64.ofNat (g.place x 0) + g.columnStep.toUInt64 * UInt64.ofNat y =
    UInt64.ofNat (g.place x y)
  cases horder : g.order with
  | topDown =>
      have step : g.columnStep.toUInt64 = UInt64.ofNat g.width.toNat := by
        simp only [columnStep, horder]
        rfl
      have place : g.place x y = g.place x 0 + g.width.toNat * y := by
        simp only [place, storageRow, horder]
        rw [Nat.zero_mul, Nat.zero_add, Nat.mul_comm, Nat.add_comm]
      rw [step, place, UInt64.ofNat_add, UInt64.ofNat_mul]
  | bottomUp =>
      have step : g.columnStep.toUInt64 = -UInt64.ofNat g.width.toNat := by
        simp only [columnStep, horder]
        rfl
      -- Rows lie the other way round, and so the first pixel is the farthest.
      have place : g.place x 0 = g.place x y + g.width.toNat * y := by
        have below : (g.height.toNat - 1) * g.width.toNat =
            (g.height.toNat - 1 - y) * g.width.toNat + g.width.toNat * y := by
          rw [Nat.mul_comm g.width.toNat, ← Nat.add_mul, Nat.sub_add_cancel (by omega)]
        simp only [place, storageRow, horder, Nat.sub_zero]
        omega
      rw [step, place, UInt64.ofNat_add, UInt64.ofNat_mul, UInt64.neg_mul, ← UInt64.sub_eq_add_neg,
        UInt64.add_sub_cancel]

/-- A span that has pixels starts at the first of them. -/
theorem eq_locate_of_span (g : Geometry) {x y n : UInt32} {start : Location}
    (granted : g.span x y n = .ok start) (pixels : 0 < n.toNat) :
    start = g.locate x.toNat y.toNat := by
  have some : n ≠ 0 := by
    rintro rfl
    exact Nat.lt_irrefl 0 pixels
  rw [span, if_neg some] at granted
  cases check : g.checkSpan x y n with
  | error e =>
      rw [check] at granted
      cases granted
  | ok _ =>
      rw [check] at granted
      exact (Except.ok.inj granted).symm

/-- So does a span that goes down a column. -/
theorem eq_locateColumn_of_columnSpan (g : Geometry) {x y n : UInt32} {start : Location}
    (granted : g.columnSpan x y n = .ok start) (pixels : 0 < n.toNat) :
    start = (g.locateColumn x.toNat).advance y.toNat := by
  have some : n ≠ 0 := by
    rintro rfl
    exact Nat.lt_irrefl 0 pixels
  rw [columnSpan, if_neg some] at granted
  split at granted
  · split at granted
    · exact (Except.ok.inj granted).symm
    · cases granted
  · cases granted

end Geometry

namespace Framebuffer

/-! ### Addressing -/

/-- All ways to address the pixels of a framebuffer lead to the same places. -/
structure Addressing (fb : Framebuffer f) : Prop where
  /-- There is exactly one pixel for every place in the picture. -/
  bijective : Set.BijOn (fun p : UInt32 × UInt32 => fb.index? p.1 p.2)
    {p | p.1 < fb.width ∧ p.2 < fb.height}
    (Except.ok '' {k | k < fb.width.toNat * fb.height.toNat})
  /-- A pixel is as far along its row as its column is from the left. -/
  row : ∀ {x y : UInt32} {l : Location}, fb.location? x y = .ok l →
    ∃ left, fb.row? y = .ok left ∧ (left.advance x.toNat).index = l.index
  /-- It is as far down its column as its row is from the top. -/
  column : ∀ {x y : UInt32} {l : Location}, fb.location? x y = .ok l →
    ∃ top, fb.column? x = .ok top ∧ (top.advance y.toNat).index = l.index
  /-- It is in its place in every span of its row that is granted. -/
  span : ∀ {x y x₀ n : UInt32} {l start : Location}, fb.location? x y = .ok l →
    fb.span x₀ y n = .ok start → x₀.toNat ≤ x.toNat → x.toNat < x₀.toNat + n.toNat →
    (start.advance (x.toNat - x₀.toNat)).index = l.index
  /-- So it is in every span of its column. -/
  columnSpan : ∀ {x y y₀ n : UInt32} {l start : Location}, fb.location? x y = .ok l →
    fb.columnSpan x y₀ n = .ok start → y₀.toNat ≤ y.toNat → y.toNat < y₀.toNat + n.toNat →
    (start.advance (y.toNat - y₀.toNat)).index = l.index
  /-- The bytes it is read from are those in its place among the bytes of its row. -/
  rowBytes : ∀ {x y : UInt32} {l : Location}, fb.location? x y = .ok l →
    fb.pixel? x.toNat y.toNat = Buffer.pixel? f fb.bytes l ∧
    ∃ first, first + fb.pitch f ≤ fb.bytes.size ∧
      fb.rowBytes? y = .ok (fb.bytes.extract first (first + fb.pitch f)).toList ∧
      (l.bytesIn f).start.toNat = first + x.toNat * f.bytesPerPixel ∧
      (l.bytesIn f).stop.toNat = first + (x.toNat + 1) * f.bytesPerPixel

theorem addressing (fb : Framebuffer f) : fb.Addressing where
  bijective := fb.index?_bijOn
  row := by
    intro x y l found
    obtain ⟨⟨hx, hy⟩, rfl⟩ := fb.location?_eq_ok_iff.mp found
    have first : 0 < fb.width := UInt32.lt_of_le_of_lt (UInt32.zero_le) hx
    refine ⟨_, fb.location?_eq_ok first hy, ?_⟩
    rw [fb.locate_advance, UInt32.toNat_zero, Nat.zero_add]
  column := by
    intro x y l found
    obtain ⟨⟨hx, hy⟩, rfl⟩ := fb.location?_eq_ok_iff.mp found
    have first : 0 < fb.height := UInt32.lt_of_le_of_lt (UInt32.zero_le) hy
    refine ⟨fb.locateColumn x.toNat, ?_, ?_⟩
    · rw [Geometry.column?, fb.location?_eq_ok hx first]
      rfl
    · exact fb.index_locateColumn_advance x.toNat (UInt32.lt_iff_toNat_lt.mp hy)
  span := by
    intro x y x₀ n l start found granted low high
    obtain ⟨-, rfl⟩ := fb.location?_eq_ok_iff.mp found
    rw [fb.eq_locate_of_span granted (by omega), fb.locate_advance, Nat.add_sub_cancel' low]
  columnSpan := by
    intro x y y₀ n l start found granted low high
    obtain ⟨⟨-, hy⟩, rfl⟩ := fb.location?_eq_ok_iff.mp found
    rw [fb.eq_locateColumn_of_columnSpan granted (by omega), Location.advance_advance,
      Nat.add_sub_cancel' low]
    exact fb.index_locateColumn_advance x.toNat (UInt32.lt_iff_toNat_lt.mp hy)
  rowBytes := by
    intro x y l found
    obtain ⟨⟨hx, hy⟩, rfl⟩ := fb.location?_eq_ok_iff.mp found
    obtain ⟨inside, slice⟩ := fb.rowSlice?_eq_extract hy
    rw [UInt32.lt_iff_toNat_lt] at hx hy
    have first : (fb.locate x.toNat y.toNat).offset f =
        fb.storageRow y.toNat * fb.pitch f + x.toNat * f.bytesPerPixel := by
      rw [Geometry.locate, fb.offset_inStorageRow f (fb.storageRow_lt hy) hx fb.byteLength_lt,
        Nat.add_mul, Nat.mul_assoc]
      rfl
    have fits := fb.fits_locate f hx hy fb.byteLength_lt
    refine ⟨if_pos ⟨hx, hy⟩, _, inside, ?_, first, ?_⟩
    · rw [rowBytes?, slice]
      rfl
    · rw [fits.toNat_stop, first, Nat.succ_mul, Nat.add_assoc]

/-! ### Histories -/

end Framebuffer

/-- Whatever a request comes to, and even if it stops halfway, the geometry stays. -/
theorem Drawing.toGeometry_state_outcome (pool : Pool) (fb : Framebuffer f)
    (drawing : Drawing f) : (drawing.outcome pool fb).state.toGeometry = fb.toGeometry := by
  cases drawing with
  | fillSpan op x y n c =>
      rw [outcome, fb.fillSpan_eq]
      exact Framebuffer.toGeometry_state_answer _ rfl
  | copySpan op x y src sx sy n =>
      rw [outcome, fb.copySpan_eq]
      exact Framebuffer.toGeometry_state_answer _ rfl
  | copySpanWithin op x y sx sy n =>
      rw [outcome, fb.copySpanWithin_eq]
      exact Framebuffer.toGeometry_state_answer _ (Framebuffer.toGeometry_drawPixels ..)
  | fillRows op band c threading =>
      rw [outcome, fb.fillRowsOn_eq]
      exact Framebuffer.toGeometry_state_answer _ rfl
  | copyRows op band src sx sy threading =>
      rw [outcome, fb.copyRowsOn_eq]
      exact Framebuffer.toGeometry_state_answer _ rfl
  | fillRowBytes y value =>
      rw [outcome, Framebuffer.fillRowBytes]
      split
      · exact fb.toGeometry_state_draw ..
      · rfl
  | fillAt op start n c => exact fb.toGeometry_state_draw ..
  | copyAt op start src source n => exact fb.toGeometry_state_draw ..
  | copyWithinAt op start source n => exact fb.toGeometry_state_draw ..

namespace Framebuffer

variable {g : Geometry} {fb : Framebuffer f}

theorem toGeometry_of_history (history : History g fb) : fb.toGeometry = g := by
  induction history with
  | blank made => exact toGeometry_of_blank made
  | ofBytes made => exact toGeometry_of_ofBytes made
  | drawn past pool drawing ih => rw [drawing.toGeometry_state_outcome, ih]

/-- Throughout its history a framebuffer has the geometry it was made with, and exactly the
bytes that its pixels take, and all ways to address them agree. That many bytes are also what
it takes to make one of given bytes. -/
theorem addressing_of_history (history : History g fb) :
    fb.toGeometry = g ∧ fb.bytes.size = g.width.toNat * g.height.toNat * f.bytesPerPixel ∧
    fb.Addressing ∧
    ∀ bytes : Buffer, bytes.size < UInt64.size →
      ((∃ made, Framebuffer.ofBytes f g bytes = .ok made) ↔
        bytes.size = g.width.toNat * g.height.toNat * f.bytesPerPixel) := by
  have geometry := toGeometry_of_history history
  refine ⟨geometry, ?_, fb.addressing, fun bytes memory => isOk_ofBytes_iff memory⟩
  rw [fb.size_bytes, geometry]
  rfl

/-- A picture of four pixels after a span that ran out of it on the left: two pixels were drawn
before it stopped. -/
theorem addressing_of_history_stopped :
    let g : Geometry := ⟨2, 2, .bottomUp⟩
    let fb : Framebuffer .gray8 := ⟨g, #[1, 2, 3, 4], rfl, by decide⟩
    let drawn := Drawing.outcome default fb (.fillAt .copy (.reversed 1) 3 (.gray 9))
    drawn.cause?.isSome ∧ drawn.state.bytes = #[9, 9, 3, 4] ∧ History g drawn.state ∧
      drawn.state.toGeometry = g ∧ drawn.state.Addressing ∧
      ∃ made, ofBytes .gray8 g #[4, 3, 2, 1] = .ok made := by
  intro g fb drawn
  have made : ofBytes .gray8 g #[1, 2, 3, 4] = .ok fb := rfl
  have history : History g drawn.state := .drawn (.ofBytes made) default _
  obtain ⟨geometry, -, addressing, taken⟩ := addressing_of_history history
  have four : (#[4, 3, 2, 1] : Buffer).size < UInt64.size := by decide
  exact ⟨by decide, by decide, history, geometry, addressing, (taken _ four).mpr rfl⟩

end Framebuffer

end Raster
