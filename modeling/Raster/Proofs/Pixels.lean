import Raster.Framebuffer.Draw
import Raster.Proofs.Pieces
import Raster.Proofs.Spans
/-!
# Drawing as a change of pixels

A framebuffer is a field of pixels that counts from the top left, and `mapPixels` is every
change of pixels that there is. What it does to a pixel does not depend on the order of the
rows in memory (`pixel?_mapPixels`); the passage from places in memory to coordinates is
made here once, and everything behind it is about coordinates.

* `draw_eq_mapPixels` — work that changes the colors in memory changes the pixels that they
  are the colors of;
* `draw_span` and `draw_onBand` — a range of places that is the range of a span, and the
  rows in memory of a band, are the pixels of a band (`Band.inside`).
-/

namespace Raster

variable {f s : PixelFormat}

open Buffer

/-! ### Places of pixels -/

namespace Geometry

/-- Where a pixel lies among all the pixels in memory. -/
def place (g : Geometry) (x y : Nat) : Nat := g.storageRow y * g.width.toNat + x

/-- To turn the rows around twice gives them back. -/
theorem storageRow_storageRow (g : Geometry) {y : Nat} (hy : y < g.height.toNat) :
    g.storageRow (g.storageRow y) = y := by
  cases horder : g.order with
  | topDown => simp only [storageRow, horder]
  | bottomUp =>
      simp only [storageRow, horder]
      omega

theorem place_div (g : Geometry) {x : Nat} (hx : x < g.width.toNat) (y : Nat) :
    g.place x y / g.width.toNat = g.storageRow y := by
  rw [place, Nat.mul_comm, Nat.mul_add_div (Nat.zero_lt_of_lt hx), Nat.div_eq_of_lt hx,
    Nat.add_zero]

theorem place_mod (g : Geometry) {x : Nat} (hx : x < g.width.toNat) (y : Nat) :
    g.place x y % g.width.toNat = x := by
  rw [place, Nat.mul_comm, Nat.mul_add_mod, Nat.mod_eq_of_lt hx]

theorem place_add (g : Geometry) (x n y : Nat) : g.place (x + n) y = g.place x y + n := by
  rw [place, place, Nat.add_assoc]

/-- Every place is that of a pixel. -/
theorem place_of_lt (g : Geometry) {k : Nat} (hk : k / g.width.toNat < g.height.toNat) :
    g.place (k % g.width.toNat) (g.storageRow (k / g.width.toNat)) = k := by
  rw [place, g.storageRow_storageRow hk]
  exact Nat.div_add_mod' k _

/-- The bytes of the pictures are those of its pixels. -/
theorem byteLength_eq (g : Geometry) (f : PixelFormat) :
    g.byteLength f = g.height.toNat * (g.width.toNat * f.bytesPerPixel) := by
  rw [byteLength, Nat.mul_comm g.width.toNat, Nat.mul_assoc]

/-- The `n` pixels from `(x, y)` to the right lie inside the bytes of the picture. -/
theorem place_inside (g : Geometry) (f : PixelFormat) {x y n : Nat} (hx : x + n ≤ g.width.toNat)
    (hy : y < g.height.toNat) : (g.place x y + n) * f.bytesPerPixel ≤ g.byteLength f := by
  have row := place_end_le g.width.toNat (g.storageRow_lt hy)
  have pixels : g.place x y + n ≤ g.width.toNat * g.height.toNat := by
    rw [place, Nat.mul_comm g.width.toNat]
    omega
  exact Nat.mul_le_mul_right _ pixels

/-- Different rows are different rows in memory. -/
theorem storageRow_inj (g : Geometry) {y y' : Nat} (hy : y < g.height.toNat)
    (hy' : y' < g.height.toNat) (h : g.storageRow y = g.storageRow y') : y = y' := by
  rw [← g.storageRow_storageRow hy, h, g.storageRow_storageRow hy']

/-- The places of the `n` pixels from `(x, y)` to the right. -/
theorem place_mem_range (g : Geometry) {x y n X Y : Nat} (hx : x + n ≤ g.width.toNat)
    (hy : y < g.height.toNat) (hX : X < g.width.toNat) (hY : Y < g.height.toNat) :
    (g.place x y ≤ g.place X Y ∧ g.place X Y < g.place x y + n) ↔
      Y = y ∧ x ≤ X ∧ X < x + n := by
  simp only [place]
  by_cases row : Y = y
  · subst row
    omega
  · -- The rows are a whole row apart, and neither span leaves its row.
    have apart : g.storageRow Y ≠ g.storageRow y := fun h => row (g.storageRow_inj hY hy h)
    rcases Nat.lt_or_gt_of_ne apart with h | h
    · have above := place_end_le g.width.toNat h
      omega
    · have below := place_end_le g.width.toNat h
      omega

/-- Different pixels are in different places. -/
theorem place_inj (g : Geometry) {x y X Y : Nat} (hx : x < g.width.toNat)
    (hy : y < g.height.toNat) (hX : X < g.width.toNat) (hY : Y < g.height.toNat) :
    g.place X Y = g.place x y ↔ X = x ∧ Y = y := by
  have one := g.place_mem_range (n := 1) hx hy hX hY
  omega

end Geometry

/-! ### Changing pixels -/

namespace Framebuffer

/-- A framebuffer is its geometry and its bytes. -/
theorem ext_bytes {fb fb' : Framebuffer f} (geometry : fb.toGeometry = fb'.toGeometry)
    (bytes : fb.bytes = fb'.bytes) : fb = fb' := by
  cases fb
  cases fb'
  simp_all

/-- The pixels in memory have 64-bit addresses. -/
theorem byteLength_lt (fb : Framebuffer f) : fb.byteLength f < UInt64.size :=
  fb.size_bytes ▸ fb.size_lt

/-- A pixel is the color in its place. -/
theorem pixel?_eq_cell? (fb : Framebuffer f) {x y : Nat} (hx : x < fb.width.toNat)
    (hy : y < fb.height.toNat) : fb.pixel? x y = cell? f fb.bytes (fb.place x y) := by
  have inside := fb.toGeometry.place_inside f (n := 1) hx hy
  rw [Nat.succ_mul] at inside
  have small := fb.byteLength_lt
  have fits : (fb.locate x y).Fits f fb.bytes.size := by
    rw [fb.size_bytes]
    exact fb.toGeometry.fits_locate f hx hy small
  have place : (fb.locate x y).cell f = fb.place x y := Location.cell_forward (by
    show fb.place x y * f.bytesPerPixel < UInt64.size
    omega)
  rw [pixel?, if_pos ⟨hx, hy⟩, Buffer.pixel?_eq_cell? fits, place]

/-- Every place with a color is that of a pixel. -/
theorem lt_of_cell? {fb : Framebuffer f} {k : Nat} {d : Color f}
    (there : cell? f fb.bytes k = some d) :
    k % fb.width.toNat < fb.width.toNat ∧ k / fb.width.toNat < fb.height.toNat := by
  have width : 0 < fb.width.toNat := by
    refine Nat.pos_of_ne_zero ?_
    intro narrow
    have inside := (isSome_cell? f fb.bytes k).mp (there ▸ rfl)
    rw [fb.size_bytes, Geometry.byteLength, narrow, Nat.succ_mul] at inside
    have := f.bytesPerPixel_pos
    omega
  exact ⟨Nat.mod_lt _ width, piece_lt (fb.size_bytes.trans (fb.toGeometry.byteLength_eq f)) there⟩

/-- Every pixel replaced by what `h` makes of it at its coordinates. -/
def mapPixels (h : Nat → Nat → Color f → Color f) (fb : Framebuffer f) : Framebuffer f where
  toGeometry := fb.toGeometry
  bytes := mapCells (fun k => h (k % fb.width.toNat) (fb.storageRow (k / fb.width.toNat))) fb.bytes
  size_bytes := by rw [size_mapCells, fb.size_bytes]
  size_lt := by rw [size_mapCells]; exact fb.size_lt

@[simp] theorem toGeometry_mapPixels (h : Nat → Nat → Color f → Color f) (fb : Framebuffer f) :
    (fb.mapPixels h).toGeometry = fb.toGeometry := rfl

theorem bytes_mapPixels (h : Nat → Nat → Color f → Color f) (fb : Framebuffer f) :
    (fb.mapPixels h).bytes = mapCells
      (fun k => h (k % fb.width.toNat) (fb.storageRow (k / fb.width.toNat))) fb.bytes := rfl

/-- What is in a pixel afterwards, in whichever order the rows lie. -/
@[simp] theorem pixel?_mapPixels (h : Nat → Nat → Color f → Color f) (fb : Framebuffer f)
    (x y : Nat) : (fb.mapPixels h).pixel? x y = (fb.pixel? x y).map (h x y) := by
  by_cases inside : x < fb.width.toNat ∧ y < fb.height.toNat
  · obtain ⟨hx, hy⟩ := inside
    rw [pixel?_eq_cell? (fb.mapPixels h) hx hy, pixel?_eq_cell? fb hx hy]
    rw [bytes_mapPixels, toGeometry_mapPixels, cell?_mapCells, fb.place_div hx, fb.place_mod hx,
      fb.storageRow_storageRow hy]
  · rw [pixel?, pixel?, toGeometry_mapPixels, if_neg inside, if_neg inside]
    rfl

theorem mapPixels_id (fb : Framebuffer f) : fb.mapPixels (fun _ _ d => d) = fb := by
  refine ext_bytes rfl ?_
  rw [bytes_mapPixels, mapCells_id]

/-- Changes that make the same of the pixels that are there are the same. -/
theorem mapPixels_congr_of_pixel? {fb : Framebuffer f} {g h : Nat → Nat → Color f → Color f}
    (same : ∀ x y d, fb.pixel? x y = some d → g x y d = h x y d) :
    fb.mapPixels g = fb.mapPixels h := by
  refine ext_bytes rfl ?_
  rw [bytes_mapPixels, bytes_mapPixels]
  refine mapCells_congr ?_
  intro k d there
  obtain ⟨column, row⟩ := lt_of_cell? there
  refine same _ _ d ?_
  rw [pixel?_eq_cell? fb column (fb.storageRow_lt row), fb.place_of_lt row, there]

/-- Changes that are the same inside the picture are the same. -/
theorem mapPixels_congr {fb : Framebuffer f} {g h : Nat → Nat → Color f → Color f}
    (same : ∀ x y d, x < fb.width.toNat → y < fb.height.toNat → g x y d = h x y d) :
    fb.mapPixels g = fb.mapPixels h := by
  refine mapPixels_congr_of_pixel? ?_
  intro x y d there
  obtain ⟨column, row⟩ := (fb.isSome_pixel? x y).mp (there ▸ rfl)
  exact same x y d column row

/-- One change after another is one change. -/
theorem mapPixels_mapPixels (g h : Nat → Nat → Color f → Color f) (fb : Framebuffer f) :
    (fb.mapPixels g).mapPixels h = fb.mapPixels fun x y d => h x y (g x y d) := by
  refine ext_bytes rfl ?_
  rw [bytes_mapPixels, bytes_mapPixels, bytes_mapPixels, toGeometry_mapPixels, mapCells_mapCells]

/-- The pixel in column `x` of row `y`, or the zero color where there is none. -/
def color (fb : Framebuffer f) (x y : Nat) : Color f := (fb.pixel? x y).getD default

theorem pixel?_eq_color (fb : Framebuffer f) {x y : Nat} (hx : x < fb.width.toNat)
    (hy : y < fb.height.toNat) : fb.pixel? x y = some (fb.color x y) := by
  obtain ⟨c, hc⟩ := Option.isSome_iff_exists.mp ((fb.isSome_pixel? x y).mpr ⟨hx, hy⟩)
  rw [color, hc, Option.getD_some]

theorem color_eq_cell (fb : Framebuffer f) {x y : Nat} (hx : x < fb.width.toNat)
    (hy : y < fb.height.toNat) : fb.color x y = fb.bytes.color f (fb.place x y) := by
  rw [color, pixel?_eq_cell? fb hx hy, Buffer.color]

/-- The color of a pixel afterwards. -/
theorem pixel?_mapPixels_of_lt (h : Nat → Nat → Color f → Color f) (fb : Framebuffer f) {x y : Nat}
    (hx : x < fb.width.toNat) (hy : y < fb.height.toNat) :
    (fb.mapPixels h).pixel? x y = some (h x y (fb.color x y)) := by
  rw [pixel?_mapPixels, fb.pixel?_eq_color hx hy, Option.map_some]

theorem color_mapPixels (h : Nat → Nat → Color f → Color f) (fb : Framebuffer f) {x y : Nat}
    (hx : x < fb.width.toNat) (hy : y < fb.height.toNat) :
    (fb.mapPixels h).color x y = h x y (fb.color x y) := by
  rw [color, fb.pixel?_mapPixels_of_lt h hx hy, Option.getD_some]

/-- Work that is done to its end leaves the same geometry and the bytes it came to. -/
theorem draw_eq_finished {fb fb' : Framebuffer f} {work : Buffer → Outcome Fault Buffer}
    {keeps : ∀ b, (work b).state.size = b.size} (geometry : fb'.toGeometry = fb.toGeometry)
    (done : work fb.bytes = .finished fb'.bytes) : fb.draw work keeps = .finished fb' := by
  have state : (fb.paint work keeps).state = fb' := by
    refine ext_bytes ?_ ?_
    · rw [toGeometry_state_paint, geometry]
    · rw [bytes_state_paint, done, Outcome.state_finished]
  have cause : (fb.paint work keeps).cause? = none := by rw [cause?_paint, done]; rfl
  have result : fb.paint work keeps = .finished fb' := Outcome.ext state cause
  rw [draw, result]
  rfl

/-- Work that changes the colors in memory changes the pixels they belong to. -/
theorem draw_eq_mapPixels {fb : Framebuffer f} {work : Buffer → Outcome Fault Buffer}
    {keeps : ∀ b, (work b).state.size = b.size} {h : Nat → Nat → Color f → Color f}
    {change : Nat → Color f → Color f}
    (done : work fb.bytes = .finished (mapCells change fb.bytes))
    (same : ∀ x y d, x < fb.width.toNat → y < fb.height.toNat →
      change (fb.place x y) d = h x y d) :
    fb.draw work keeps = .finished (fb.mapPixels h) := by
  have bytes : mapCells change fb.bytes = (fb.mapPixels h).bytes := by
    rw [bytes_mapPixels]
    refine mapCells_congr ?_
    intro k d there
    obtain ⟨column, row⟩ := lt_of_cell? there
    rw [← same _ _ d column (fb.storageRow_lt row), fb.place_of_lt row]
  exact draw_eq_finished rfl (done.trans (congrArg _ bytes))

end Framebuffer

/-! ### Spans and bands -/

/-- A change of the pixels of a band, each by its column and row in the band. -/
def Band.inside (band : Band) (g : Nat → Nat → Color f → Color f) (x y : Nat) (d : Color f) :
    Color f :=
  if band.Contains x y then g (x - band.x.toNat) (y - band.y.toNat) d else d

theorem Band.inside_of_contains {band : Band} {g : Nat → Nat → Color f → Color f} {x y : Nat}
    {d : Color f} (h : band.Contains x y) :
    band.inside g x y d = g (x - band.x.toNat) (y - band.y.toNat) d := if_pos h

theorem Band.inside_of_not_contains {band : Band} {g : Nat → Nat → Color f → Color f} {x y : Nat}
    {d : Color f} (h : ¬ band.Contains x y) : band.inside g x y d = d := if_neg h

/-- A span is a band of one row. -/
def Band.ofSpan (x y n : UInt32) : Band := ⟨x, y, n, 1⟩

theorem Band.contains_ofSpan {x y n : UInt32} {X Y : Nat} :
    (ofSpan x y n).Contains X Y ↔ Y = y.toNat ∧ x.toNat ≤ X ∧ X < x.toNat + n.toNat := by
  simp only [Contains, ofSpan, UInt32.toNat_one]
  omega

theorem Band.contains_column {x y n : UInt32} {X Y : Nat} :
    (⟨x, y, 1, n⟩ : Band).Contains X Y ↔ x.toNat = X ∧ y.toNat ≤ Y ∧ Y < y.toNat + n.toNat := by
  simp only [Contains, UInt32.toNat_one]
  omega

namespace Geometry

/-- Every pixel of a picture is in the band of the whole picture. -/
theorem contains_fullBand {g : Geometry} {x y : Nat} (hx : x < g.width.toNat)
    (hy : y < g.height.toNat) : g.fullBand.Contains x y := by
  simp only [Band.Contains, fullBand, UInt32.toNat_zero]
  omega

/-- The place of the first pixel of a span; of a span without pixels, some place. -/
def spanPlace (g : Geometry) (x y n : UInt32) : Nat :=
  if n = 0 then 0 else g.place x.toNat y.toNat

theorem spanPlace_of_lt (g : Geometry) {x y n : UInt32} (pos : 0 < n.toNat) :
    g.spanPlace x y n = g.place x.toNat y.toNat := by
  apply if_neg
  rintro rfl
  exact Nat.lt_irrefl 0 pos

/-- A span that passes the check starts at its place. -/
theorem spanStart?_eq_ok {g : Geometry} {x y n : UInt32} (granted : g.checkSpan x y n = .ok ()) :
    g.spanStart? x y n = .ok (.forward (UInt64.ofNat (g.spanPlace x y n))) := by
  rw [spanStart?_eq, span, granted, spanPlace]
  by_cases empty : n = 0
  · simp only [empty, if_true]
    rfl
  · simp only [empty, if_false]
    rfl

/-- Its pixels lie inside the bytes of the picture. -/
theorem spanPlace_inside {g : Geometry} {x y n : UInt32} (f : PixelFormat)
    (granted : g.checkSpan x y n = .ok ()) :
    (g.spanPlace x y n + n.toNat) * f.bytesPerPixel ≤ g.byteLength f := by
  obtain ⟨hy, hx⟩ := (g.checkSpan_eq_ok_iff x y n).mp granted
  rw [spanPlace]
  split
  · next empty =>
      subst empty
      simp
  · exact g.place_inside f hx (UInt32.lt_iff_toNat_lt.mp hy)

end Geometry

namespace Framebuffer

/-- To change the places of a span is to change its pixels. -/
theorem draw_span {fb : Framebuffer f} {work : Buffer → Outcome Fault Buffer}
    {keeps : ∀ b, (work b).state.size = b.size} {x y n : UInt32} {g : Nat → Color f → Color f}
    (granted : fb.checkSpan x y n = .ok ())
    (done : work fb.bytes =
      .finished (mapCells (inRange (fb.spanPlace x y n) n.toNat g) fb.bytes)) :
    fb.draw work keeps =
      .finished (fb.mapPixels ((Band.ofSpan x y n).inside fun dx _ => g dx)) := by
  obtain ⟨hy, hx⟩ := (fb.checkSpan_eq_ok_iff x y n).mp granted
  rw [UInt32.lt_iff_toNat_lt] at hy
  refine draw_eq_mapPixels done ?_
  intro X Y d hX hY
  by_cases within : (Band.ofSpan x y n).Contains X Y
  · obtain ⟨rfl, low, high⟩ := Band.contains_ofSpan.mp within
    have start := fb.spanPlace_of_lt (x := x) (y := y) (n := n) (by omega)
    have column : fb.place X y.toNat - fb.spanPlace x y n = X - x.toNat := by
      rw [start]
      simp only [Geometry.place]
      omega
    have range := (fb.place_mem_range hx hy hX hY).mpr ⟨rfl, low, high⟩
    rw [← start] at range
    rw [inRange_of_mem range, Band.inside_of_contains within, column]
    rfl
  · rw [Band.inside_of_not_contains within, inRange_of_not_mem]
    intro range
    have start := fb.spanPlace_of_lt (x := x) (y := y) (n := n) (by omega)
    rw [start] at range
    exact within (Band.contains_ofSpan.mpr ((fb.place_mem_range hx hy hX hY).mp range))

/-- The colors of a span that passes the check are those of its pixels. -/
theorem color_spanPlace {fb : Framebuffer f} {x y n : UInt32} {j : Nat}
    (granted : fb.checkSpan x y n = .ok ()) (hj : j < n.toNat) :
    fb.bytes.color f (fb.spanPlace x y n + j) = fb.color (x.toNat + j) y.toNat := by
  obtain ⟨hy, hx⟩ := (fb.checkSpan_eq_ok_iff x y n).mp granted
  rw [UInt32.lt_iff_toNat_lt] at hy
  rw [color_eq_cell fb (by omega) hy, fb.spanPlace_of_lt (Nat.zero_lt_of_lt hj),
    fb.place_add]

end Framebuffer

namespace Geometry

theorem bandStorageRow_add_le {g : Geometry} {band : Band} (fits : band.Fits g.width g.height) :
    g.bandStorageRow band + band.height.toNat ≤ g.height.toNat := by
  obtain ⟨-, bottom⟩ := fits
  cases horder : g.order with
  | topDown => simpa only [bandStorageRow, horder] using bottom
  | bottomUp =>
      simp only [bandStorageRow, horder]
      omega

/-- The rows of a band are those that lie in its stretch of memory. -/
theorem storageRow_mem_band {g : Geometry} {band : Band} (fits : band.Fits g.width g.height)
    {y : Nat} (hy : y < g.height.toNat) :
    (g.bandStorageRow band ≤ g.storageRow y ∧
        g.storageRow y < g.bandStorageRow band + band.height.toNat) ↔
      band.y.toNat ≤ y ∧ y < band.y.toNat + band.height.toNat := by
  obtain ⟨-, bottom⟩ := fits
  cases horder : g.order with
  | topDown => simp only [bandStorageRow, storageRow, horder]
  | bottomUp =>
      simp only [bandStorageRow, storageRow, horder]
      omega

/-- Which row of the band each of them is. -/
theorem bandRow_storageRow {g : Geometry} {band : Band} (fits : band.Fits g.width g.height)
    {y : Nat} (hy : band.y.toNat ≤ y ∧ y < band.y.toNat + band.height.toNat) :
    g.bandRow band (g.storageRow y - g.bandStorageRow band) = y - band.y.toNat := by
  obtain ⟨-, bottom⟩ := fits
  cases horder : g.order with
  | topDown => simp only [bandStorageRow, storageRow, bandRow, horder]
  | bottomUp =>
      simp only [bandStorageRow, storageRow, bandRow, horder]
      omega

/-- The place of a pixel among those of the rows of a band. -/
theorem place_mem_rows {g : Geometry} {first n x y : Nat} (hx : x < g.width.toNat) :
    (first * g.width.toNat ≤ g.place x y ∧
        g.place x y < first * g.width.toNat + n * g.width.toNat) ↔
      first ≤ g.storageRow y ∧ g.storageRow y < first + n := by
  rw [← Nat.add_mul, ← Nat.le_div_iff_mul_le (Nat.zero_lt_of_lt hx),
    ← Nat.div_lt_iff_lt_mul (Nat.zero_lt_of_lt hx), g.place_div hx]

/-- A pixel of the band is in the piece of its row, in its own column. -/
theorem place_sub_rows {g : Geometry} {first x y : Nat} (hx : x < g.width.toNat)
    (low : first ≤ g.storageRow y) :
    (g.place x y - first * g.width.toNat) / g.width.toNat = g.storageRow y - first ∧
      (g.place x y - first * g.width.toNat) % g.width.toNat = x := by
  have rows := Nat.mul_le_mul_right g.width.toNat low
  have rest : g.place x y - first * g.width.toNat =
      g.width.toNat * (g.storageRow y - first) + x := by
    rw [place, Nat.mul_comm g.width.toNat, Nat.sub_mul]
    omega
  rw [rest, Nat.mul_add_div (Nat.zero_lt_of_lt hx), Nat.div_eq_of_lt hx, Nat.mul_add_mod,
    Nat.mod_eq_of_lt hx]
  exact ⟨rfl, rfl⟩

/-- To change as many places in each of these rows as the band has columns is to change the
pixels of the band. -/
theorem inRange_rows {g : Geometry} {band : Band} (fits : band.Fits g.width g.height)
    {change : Nat → Nat → Color f → Color f} {x y : Nat} (hx : x < g.width.toNat)
    (hy : y < g.height.toNat) (d : Color f) :
    inRange (g.bandStorageRow band * g.width.toNat) (band.height.toNat * g.width.toNat)
      (fun k => inRange band.x.toNat band.width.toNat
        (fun dx => change dx (g.bandRow band (k / g.width.toNat))) (k % g.width.toNat))
      (g.place x y) d = band.inside change x y d := by
  have memory := storageRow_mem_band fits hy
  by_cases row : band.y.toNat ≤ y ∧ y < band.y.toNat + band.height.toNat
  · have stored := memory.mpr row
    obtain ⟨piece, column⟩ := place_sub_rows hx stored.1
    rw [inRange_of_mem ((place_mem_rows hx).mpr stored), piece, column,
      bandRow_storageRow fits row]
    -- In a row of the band, only the column decides.
    by_cases within : band.x.toNat ≤ x ∧ x < band.x.toNat + band.width.toNat
    · rw [inRange_of_mem within, Band.inside_of_contains ⟨within, row⟩]
    · rw [inRange_of_not_mem within, Band.inside_of_not_contains fun h => within h.1]
  · rw [inRange_of_not_mem fun h => row (memory.mp ((place_mem_rows hx).mp h)),
      Band.inside_of_not_contains fun h => row h.2]

end Geometry

/-- A picture that a band with pixels lies in has columns. -/
theorem Band.width_pos {band : Band} {width height : UInt32} (fits : band.Fits width height)
    (occupied : band.isEmpty = false) : 0 < width.toNat := by
  obtain ⟨right, -⟩ := fits
  simp only [Band.isEmpty, Bool.or_eq_false_iff, beq_eq_false_iff_ne, ne_eq,
    ← UInt32.toNat_inj, UInt32.toNat_zero] at occupied
  omega

namespace Framebuffer

/-- Work on the rows of a band that changes in each as many places as the band has columns
changes the pixels of the band. -/
theorem draw_onBand {fb : Framebuffer f} {band : Band}
    {work : StorageRows → Buffer → Outcome Fault Buffer}
    {keeps : ∀ b, (onBand fb.toGeometry f band work b).state.size = b.size}
    {change : Nat → Nat → Color f → Color f} (fits : band.Fits fb.width fb.height)
    (done : ∀ part : Buffer, 0 < fb.width.toNat →
      part.size = band.height.toNat * (fb.width.toNat * f.bytesPerPixel) →
      work (fb.bandRows band) part = .finished (mapCells (fun k =>
        inRange band.x.toNat band.width.toNat
          (fun dx => change dx (fb.bandRow band (k / fb.width.toNat)))
          (k % fb.width.toNat)) part)) :
    fb.draw (onBand fb.toGeometry f band work) keeps =
      .finished (fb.mapPixels (band.inside change)) := by
  cases empty : band.isEmpty with
  | true =>
      -- The check for an empty band comes first, so no row is looked at.
      have nothing : onBand fb.toGeometry f band work fb.bytes =
          .finished (mapCells (fun _ (d : Color f) => d) fb.bytes) := by
        rw [onBand, if_pos empty, mapCells_id]
      refine draw_eq_mapPixels nothing ?_
      intro x y d _ _
      exact (Band.inside_of_not_contains ((band.isEmpty_iff).mp empty x y)).symm
  | false =>
      have width := Band.width_pos fits empty
      have inside : (fb.bandStorageRow band * fb.width.toNat +
          band.height.toNat * fb.width.toNat) * f.bytesPerPixel ≤ fb.bytes.size := by
        rw [fb.size_bytes, fb.toGeometry.byteLength_eq, ← Nat.add_mul, Nat.mul_assoc]
        exact Nat.mul_le_mul_right _ (fb.bandStorageRow_add_le fits)
      have slice := onSlice_eq_mapCells inside fun part size =>
        done part width (by rw [size, Nat.mul_assoc])
      rw [← Nat.add_mul, Nat.mul_assoc, Nat.mul_assoc] at slice
      have rows : onBand fb.toGeometry f band work fb.bytes =
          fb.bytes.onSlice (fb.bandStorageRow band * fb.pitch f)
            ((fb.bandStorageRow band + band.height.toNat) * fb.pitch f)
            (work (fb.bandRows band)) := by
        rw [onBand, empty, fb.toGeometry.storageRows?_eq_ok fits]
        rfl
      refine draw_eq_mapPixels (rows.trans slice) ?_
      intro x y d hx hy
      exact fb.inRange_rows fits hx hy d

end Framebuffer

end Raster
