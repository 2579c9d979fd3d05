import Raster.Error
import Raster.Exact
import Raster.Location
/-!
# Geometry

Where the pixels of a picture lie. A picture is stored row after row without gaps, from
the top down or from the bottom up; coordinates always count from the top left, and
`storageRow` is the only place that knows the difference.

Design points:

* a pixel has one address, `locate`, and everything else about addresses is said through
  it: rows, columns and spans are ways to get there step by step;
* unchecked addresses (`location?`, `row?`, `column?`) fault outside the picture, checked
  ones (`span`, `columnSpan`, `checkBand`) refuse. A span is granted exactly if it lies in
  the picture over exact integers (`isOk_span_iff`, `isOk_columnSpan_iff`);
* a request first checks and then addresses, and the second could still fault: for spans
  that is `spanStart?`, for bands `storageRows?` and `sourceRow?`. That behind the check
  they never do is `spanStart?_eq`, `storageRows?_eq_ok` and `sourceRow?_eq_ok`.
-/

namespace Raster

/-- How rows lie in memory. -/
inductive RowOrder
  /-- The top row first. -/
  | topDown
  /-- The bottom row first. -/
  | bottomUp
  deriving DecidableEq

namespace RowOrder

instance : Inhabited RowOrder := ⟨.topDown⟩

def name : RowOrder → String
  | .topDown => "top_down"
  | .bottomUp => "bottom_up"

def ofName? (s : String) : Option RowOrder := [topDown, bottomUp].find? (·.name == s)

@[simp] theorem ofName?_name (o : RowOrder) : ofName? o.name = some o := by
  cases o <;> decide

def description : RowOrder → Description
  | .topDown => .word "TopDown"
  | .bottomUp => .word "BottomUp"

end RowOrder

/-- The size of a picture and the order of its rows. -/
structure Geometry where
  width : UInt32
  height : UInt32
  order : RowOrder
  deriving DecidableEq

/-- The rows of a band among the rows in memory. -/
structure StorageRows where
  first : Nat
  /-- The row after the last of them. -/
  last : Nat
  /-- Whether the first one is the band's last row. -/
  reversed : Bool
  deriving DecidableEq

/-- The row of the source for the `i`-th row in memory of a band of `height` rows, when the
source of its top row is `y`. -/
def StorageRows.sourceRow? (rows : StorageRows) (y height : UInt32) (i : Nat) :
    Except Fault UInt32 :=
  let i := i % UInt32.size
  if rows.reversed then do
    let stop ← Exact.unsigned UInt32.size (y.toNat + height.toNat)
    let last ← Exact.minus stop 1
    return .ofNat (← Exact.minus last i)
  else return .ofNat (← Exact.unsigned UInt32.size (y.toNat + i))

namespace Geometry

/-- The number of bytes that the pixels take in format `f`. -/
def byteLength (g : Geometry) (f : PixelFormat) : Nat :=
  g.width.toNat * g.height.toNat * f.bytesPerPixel

/-- The number of bytes that a row takes in format `f`. -/
def pitch (g : Geometry) (f : PixelFormat) : Nat := g.width.toNat * f.bytesPerPixel

/-! ### Addresses -/

/-- Where a row lies among the rows in memory. -/
def storageRow (g : Geometry) (y : Nat) : Nat :=
  match g.order with
  | .topDown => y
  | .bottomUp => g.height.toNat - 1 - y

/-- Place `x` of the `i`-th row in memory, in a span that runs to the right. -/
def inStorageRow (g : Geometry) (i x : Nat) : Location :=
  .forward (UInt64.ofNat (i * g.width.toNat + x))

/-- The pixel in column `x` of row `y`, in a span that runs to the right. -/
def locate (g : Geometry) (x y : Nat) : Location := g.inStorageRow (g.storageRow y) x

theorem storageRow_lt (g : Geometry) {y : Nat} (hy : y < g.height.toNat) :
    g.storageRow y < g.height.toNat := by
  unfold storageRow
  split <;> omega

/-- A place in a row in memory comes before the end of all rows. -/
theorem index_lt (g : Geometry) {i x : Nat} (hi : i < g.height.toNat) (hx : x < g.width.toNat) :
    i * g.width.toNat + x < g.width.toNat * g.height.toNat :=
  calc
    i * g.width.toNat + x < i * g.width.toNat + g.width.toNat := Nat.add_lt_add_left hx _
    _ = (i + 1) * g.width.toNat := (Nat.succ_mul _ _).symm
    _ ≤ g.height.toNat * g.width.toNat := Nat.mul_le_mul_right _ hi
    _ = g.width.toNat * g.height.toNat := Nat.mul_comm _ _

/-- However large the picture, the number of such a place is a 64-bit number. -/
theorem index_lt_size (g : Geometry) {i x : Nat} (hi : i < g.height.toNat)
    (hx : x < g.width.toNat) : i * g.width.toNat + x < UInt64.size := by
  have hw := g.width.toNat_lt_size
  have hh := g.height.toNat_lt_size
  have pixels : g.width.toNat * g.height.toNat ≤ UInt32.size * UInt32.size :=
    Nat.mul_le_mul (by omega) (by omega)
  exact Nat.lt_of_lt_of_le (g.index_lt hi hx) pixels

/-- Byte addresses do not wrap in a picture whose bytes have 64-bit addresses. -/
theorem offset_inStorageRow (g : Geometry) (f : PixelFormat) {i x : Nat}
    (hi : i < g.height.toNat) (hx : x < g.width.toNat) (small : g.byteLength f < UInt64.size) :
    (g.inStorageRow i x).offset f = (i * g.width.toNat + x) * f.bytesPerPixel := by
  have inside := Nat.mul_lt_mul_of_pos_right (g.index_lt hi hx) f.bytesPerPixel_pos
  have small' := Nat.lt_trans inside small
  have index := Nat.lt_of_le_of_lt (Nat.le_mul_of_pos_right _ f.bytesPerPixel_pos) small'
  have width : (UInt64.ofNat f.bytesPerPixel).toNat = f.bytesPerPixel := by cases f <;> rfl
  simp only [inStorageRow, Location.offset, Location.bytesIn, Location.byteRange,
    Location.forward, UInt64.toNat_mul, UInt64.toNat_ofNat', width, Nat.mod_eq_of_lt index,
    Nat.mod_eq_of_lt small']

/-- Every place of every row lies inside the bytes of the picture. -/
theorem fits_inStorageRow (g : Geometry) (f : PixelFormat) {i x : Nat}
    (hi : i < g.height.toNat) (hx : x < g.width.toNat) (small : g.byteLength f < UInt64.size) :
    (g.inStorageRow i x).Fits f (g.byteLength f) := by
  rw [Location.fits_iff, g.offset_inStorageRow f hi hx small, ← Nat.succ_mul]
  have inside := Nat.mul_le_mul_right f.bytesPerPixel (g.index_lt hi hx)
  exact ⟨Nat.lt_of_le_of_lt inside small, inside⟩

theorem fits_locate (g : Geometry) (f : PixelFormat) {x y : Nat} (hx : x < g.width.toNat)
    (hy : y < g.height.toNat) (small : g.byteLength f < UInt64.size) :
    (g.locate x y).Fits f (g.byteLength f) :=
  g.fits_inStorageRow f (g.storageRow_lt hy) hx small

/-- The distance from a pixel to the one below it. -/
def columnStep (g : Geometry) : Int64 :=
  match g.order with
  | .topDown => Int64.ofNat g.width.toNat
  | .bottomUp => -Int64.ofNat g.width.toNat

/-- The top pixel of column `x`, in a span that runs downward. -/
def locateColumn (g : Geometry) (x : Nat) : Location := ⟨(g.locate x 0).index, g.columnStep⟩

/-! ### Unchecked addresses -/

/-- The location of a pixel, with a fault if there is none. -/
def location? (g : Geometry) (x y : UInt32) : Except Fault Location :=
  if y < g.height then
    if x < g.width then do
      let index ← Exact.unsigned UInt64.size (g.storageRow y.toNat * g.width.toNat + x.toNat)
      return .forward (UInt64.ofNat index)
    else .error (.columnOutside x g.width)
  else .error (.rowOutside y g.height)

/-- The index of a pixel is a 64-bit number. -/
theorem location?_eq_ok (g : Geometry) {x y : UInt32} (hx : x < g.width) (hy : y < g.height) :
    g.location? x y = .ok (g.locate x.toNat y.toNat) := by
  have small := g.index_lt_size (g.storageRow_lt (UInt32.lt_iff_toNat_lt.mp hy))
    (UInt32.lt_iff_toNat_lt.mp hx)
  rw [location?, if_pos hy, if_pos hx, Exact.unsigned_of_lt small]
  rfl

/-- The location of the first pixel of a row, with a fault if there is none. -/
def row? (g : Geometry) (y : UInt32) : Except Fault Location := g.location? 0 y

/-- The location of the top pixel of a column, with a fault if there is none. -/
def column? (g : Geometry) (x : UInt32) : Except Fault Location :=
  (g.location? x 0).map fun _ => g.locateColumn x.toNat

/-! ### Checked addresses -/

/-- All of `n` pixels from `(x, y)` to the right must be in the picture. -/
def checkSpan (g : Geometry) (x y n : UInt32) : Except Error Unit :=
  if x.toNat + n.toNat < UInt32.size then
    if y < g.height ∧ x.toNat + n.toNat ≤ g.width.toNat then .ok ()
    else .error (.spanOutside x y n g.width g.height)
  else .error .spanOverflow

/-- The location of `n` pixels from `(x, y)` to the right, all of which must be in the
picture. No pixels are drawn for `n = 0`, so there any location will do. -/
def span (g : Geometry) (x y n : UInt32) : Except Error Location :=
  (g.checkSpan x y n).map fun _ => if n = 0 then .forward 0 else g.locate x.toNat y.toNat

/-- The same location as a request takes it: the check first, and then the address of the
first pixel, which must exist. -/
def spanStart? (g : Geometry) (x y n : UInt32) : Except Failure Location :=
  match g.checkSpan x y n with
  | .error e => .error (.error e)
  | .ok () => if n = 0 then .ok (.forward 0) else (g.location? x y).mapError .fault

/-- The location of `n` pixels from `(x, y)` downward, under the same conditions. -/
def columnSpan (g : Geometry) (x y n : UInt32) : Except Error Location :=
  if y.toNat + n.toNat < UInt32.size then
    if x < g.width ∧ y.toNat + n.toNat ≤ g.height.toNat then
      .ok (if n = 0 then .forward 0 else (g.locateColumn x.toNat).advance y.toNat)
    else .error (.columnSpanOutside x y n g.width g.height)
  else .error .spanOverflow

/-- The check of a span passes exactly if the span lies in the picture. -/
theorem checkSpan_eq_ok_iff (g : Geometry) (x y n : UInt32) :
    g.checkSpan x y n = .ok () ↔ y < g.height ∧ x.toNat + n.toNat ≤ g.width.toNat := by
  have hw := g.width.toNat_lt_size
  unfold checkSpan
  split
  · split <;> simp_all
  · simp only [reduceCtorEq, false_iff, not_and]
    omega

/-- A span is granted exactly if it lies in the picture. -/
theorem isOk_span_iff (g : Geometry) (x y n : UInt32) :
    (∃ l, g.span x y n = .ok l) ↔ y < g.height ∧ x.toNat + n.toNat ≤ g.width.toNat := by
  rw [← checkSpan_eq_ok_iff, span]
  cases g.checkSpan x y n <;> simp [Except.map]

/-- The first pixel of a granted span exists. -/
theorem spanStart?_eq (g : Geometry) (x y n : UInt32) :
    g.spanStart? x y n = (g.span x y n).mapError .error := by
  rw [spanStart?, span]
  cases granted : g.checkSpan x y n with
  | error e => rfl
  | ok _ =>
      obtain ⟨hy, hx⟩ := (g.checkSpan_eq_ok_iff x y n).mp granted
      by_cases hn : n = 0
      · simp only [hn, if_true]
        rfl
      · have first : x < g.width := by
          have : n.toNat ≠ 0 := fun h => hn (UInt32.toNat_inj.mp h)
          rw [UInt32.lt_iff_toNat_lt]
          omega
        simp only [hn, if_false, g.location?_eq_ok first hy]
        rfl

/-- A vertical span is granted exactly if it lies in the picture. -/
theorem isOk_columnSpan_iff (g : Geometry) (x y n : UInt32) :
    (∃ l, g.columnSpan x y n = .ok l) ↔ x < g.width ∧ y.toNat + n.toNat ≤ g.height.toNat := by
  have hh := g.height.toNat_lt_size
  unfold columnSpan
  split
  · split <;> simp_all
  · simp only [reduceCtorEq, exists_false, false_iff, not_and]
    omega

/-! ### Bands -/

/-- The band of the whole picture. -/
def fullBand (g : Geometry) : Band := ⟨0, 0, g.width, g.height⟩

theorem fullBand_fits (g : Geometry) : g.fullBand.Fits g.width g.height := by
  simp [Band.Fits, fullBand]

/-- A band must lie in the picture it is meant for. -/
def checkBand (g : Geometry) (role : BandRole) (band : Band) : Except Error Unit :=
  if band.Fits g.width g.height then .ok ()
  else .error (.bandOutside role band g.width g.height)

/-- Where a band lies among the rows in memory, in 32-bit numbers. -/
def storageRows? (g : Geometry) (band : Band) : Except Fault StorageRows :=
  match g.order with
  | .topDown => do
      let last ← Exact.unsigned UInt32.size (band.y.toNat + band.height.toNat)
      return ⟨band.y.toNat, last, false⟩
  | .bottomUp => do
      let last ← Exact.minus g.height.toNat band.y.toNat
      let first ← Exact.minus last band.height.toNat
      return ⟨first, last, true⟩

/-- Where the first row of a band lies among the rows in memory. When rows lie from the
bottom up, that is the band's last row. -/
def bandStorageRow (g : Geometry) (band : Band) : Nat :=
  match g.order with
  | .topDown => band.y.toNat
  | .bottomUp => g.height.toNat - band.y.toNat - band.height.toNat

/-- Which row of a band, counted from its top, is the `i`-th of them in memory. -/
def bandRow (g : Geometry) (band : Band) (i : Nat) : Nat :=
  match g.order with
  | .topDown => i
  | .bottomUp => band.height.toNat - 1 - i

/-- The rows of a band that lies in the picture. -/
def bandRows (g : Geometry) (band : Band) : StorageRows :=
  ⟨g.bandStorageRow band, g.bandStorageRow band + band.height.toNat, g.order = .bottomUp⟩

/-- No number overflows on the way to the rows of a band that lies in the picture. -/
theorem storageRows?_eq_ok (g : Geometry) {band : Band} (h : band.Fits g.width g.height) :
    g.storageRows? band = .ok (g.bandRows band) := by
  obtain ⟨-, hy⟩ := h
  have hh := g.height.toNat_lt_size
  cases horder : g.order with
  | topDown =>
      have last : Exact.unsigned UInt32.size (band.y.toNat + band.height.toNat) =
          .ok (band.y.toNat + band.height.toNat) := Exact.unsigned_of_lt (by omega)
      simp only [storageRows?, bandRows, bandStorageRow, horder, last]
      rfl
  | bottomUp =>
      have last : Exact.minus g.height.toNat band.y.toNat =
          .ok (g.height.toNat - band.y.toNat) := Exact.minus_of_le (by omega)
      have first : Exact.minus (g.height.toNat - band.y.toNat) band.height.toNat =
          .ok (g.height.toNat - band.y.toNat - band.height.toNat) :=
        Exact.minus_of_le (by omega)
      have stop : g.height.toNat - band.y.toNat - band.height.toNat + band.height.toNat =
          g.height.toNat - band.y.toNat := by omega
      simp only [storageRows?, bandRows, bandStorageRow, horder, last, first, stop, bind,
        Except.bind]
      rfl

/-- No number overflows on the way to the source of a row, when the sources of all rows
are 32-bit numbers. -/
theorem sourceRow?_eq_ok (g : Geometry) {band : Band} {y : UInt32} {i : Nat}
    (fits : y.toNat + band.height.toNat < UInt32.size) (hi : i < band.height.toNat) :
    (g.bandRows band).sourceRow? y band.height i =
      .ok (UInt32.ofNat (y.toNat + g.bandRow band i)) := by
  have small : i % UInt32.size = i := Nat.mod_eq_of_lt (by omega)
  cases horder : g.order with
  | topDown =>
      have row : Exact.unsigned UInt32.size (y.toNat + i) = .ok (y.toNat + i) :=
        Exact.unsigned_of_lt (by omega)
      simp only [StorageRows.sourceRow?, bandRows, bandRow, horder, small, row]
      rfl
  | bottomUp =>
      have stop : Exact.unsigned UInt32.size (y.toNat + band.height.toNat) =
          .ok (y.toNat + band.height.toNat) := Exact.unsigned_of_lt fits
      have last : Exact.minus (y.toNat + band.height.toNat) 1 =
          .ok (y.toNat + band.height.toNat - 1) := Exact.minus_of_le (by omega)
      have row : Exact.minus (y.toNat + band.height.toNat - 1) i =
          .ok (y.toNat + (band.height.toNat - 1 - i)) := by
        rw [Exact.minus_of_le (by omega)]
        congr 1
        omega
      simp only [StorageRows.sourceRow?, bandRows, bandRow, horder, small, stop, last, bind,
        Except.bind, decide_true, if_true, row]
      rfl

end Geometry

end Raster
