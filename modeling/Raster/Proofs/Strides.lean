import Raster.Proofs.Addresses
import Raster.Proofs.Batches
import Raster.Proofs.Landing
/-!
# Spans of any step

A span may go through its buffer with any step, forward or backward, and its addresses may
wrap around. Each of its pixels lies in a place of the buffer all the same
(`Location.cell`), and the places are different as soon as their bytes are
(`Location.Apart`), because two places never share some of their bytes only
(`Location.bytesIn_inj`, `Location.contains_bytesIn_iff`).

Drawing such a span is a loop of changes in one place each. They add up to one change, `along`,
whatever the places are (`sweep_along`), and if the places are different it is known in every
place (`along_place`, `along_of_ne`). So each pixel of the span is drawn over once, from its own
source, and no byte besides (`Buffer.DrawnAlong`).

Two kinds of steps have a meaning of their own. With a step of -1 a span is mirrored, and with
a step of a whole row, up or down, it is a column of a picture. `spans_drawn_along` says all of
that.
-/

namespace Raster

variable {f s : PixelFormat}

/-! ### The bytes of a place -/

/-- The byte at address `j` is one of the stretch. -/
def ByteRange.Contains (r : ByteRange) (j : Nat) : Prop := r.start.toNat ≤ j ∧ j < r.stop.toNat

namespace Location

variable {l l' : Location}

/-- Locations with the same bytes have the same place, and the other way round. -/
theorem bytesIn_inj : l.bytesIn f = l'.bytesIn f ↔ l.cell f = l'.cell f := by
  constructor
  · intro same
    rw [cell, cell, offset, offset, same]
  · intro same
    have start : (l.bytesIn f).start = (l'.bytesIn f).start := by
      refine UInt64.toNat_inj.mp ?_
      have offsets : l.offset f = l'.offset f := by rw [l.offset_eq, l'.offset_eq, same]
      exact offsets
    have stop : (l.bytesIn f).stop = (l'.bytesIn f).stop := congrArg (· + _) start
    exact ByteRange.mk.injEq .. ▸ ⟨start, stop⟩

/-- The step has no part in the bytes. -/
theorem bytesIn_congr (index : l.index = l'.index) : l.bytesIn f = l'.bytesIn f := by
  rw [bytesIn, byteRange, index]
  rfl

/-- The bytes of a location that fits are those of its place. -/
theorem contains_bytesIn_iff {size : Nat} (fits : l.Fits f size) (j : Nat) :
    (l.bytesIn f).Contains j ↔ j / f.bytesPerPixel = l.cell f := by
  have pos := f.bytesPerPixel_pos
  have start : (l.bytesIn f).start.toNat = l.cell f * f.bytesPerPixel := l.offset_eq f
  rw [ByteRange.Contains, fits.toNat_stop, l.offset_eq, start, Nat.div_eq_iff pos]
  omega

/-- No two of the first `n` places of the span are made of the same bytes: they are different places
of the buffer. Different indices are not enough for that, since two indices that are a whole turn of
the address space apart (`PixelFormat.turn`, 2⁶⁴ over the bytes of a pixel) are one place. If the
span stays in the buffer, its positions need only be different (`apart_of_position`). -/
def Apart (l : Location) (f : PixelFormat) (n : Nat) : Prop :=
  ∀ i < n, ∀ j < n, (l.advance i).bytesIn f = (l.advance j).bytesIn f → i = j

/-- The place of a position is the position, where there is a pixel. -/
theorem cell_of_position {b : Buffer} {j : Nat} (small : b.size < UInt64.size)
    (inside : 0 ≤ l.position j ∧ (l.position j + 1) * f.bytesPerPixel ≤ b.size) :
    (l.advance j).Fits f b.size ∧ ((l.advance j).cell f : Int) = l.position j := by
  obtain ⟨low, high⟩ := inside
  obtain ⟨k, hk⟩ := Int.eq_ofNat_of_zero_le low
  have room : (k + 1) * f.bytesPerPixel ≤ b.size := by
    rw [hk] at high
    exact_mod_cast high
  have near : (k : Int) < f.turn := Int.ofNat_lt.mpr (Buffer.place_lt_turn small room)
  have place : (l.advance j).cell f = k := by
    refine Int.ofNat_inj.mp ?_
    rw [cell_advance, hk, Int.emod_eq_of_lt (Int.natCast_nonneg k) near]
  refine ⟨?_, by rw [place, hk]⟩
  rw [← isSome_cell?_iff_fits small, Buffer.isSome_cell?, place]
  exact room

/-- Different positions of pixels of a buffer lie apart. -/
theorem apart_of_position {b : Buffer} {n : Nat} (small : b.size < UInt64.size)
    (inside : ∀ j < n, 0 ≤ l.position j ∧ (l.position j + 1) * f.bytesPerPixel ≤ b.size)
    (different : ∀ i < n, ∀ j < n, l.position i = l.position j → i = j) :
    (∀ j < n, (l.advance j).Fits f b.size) ∧ l.Apart f n := by
  refine ⟨fun j hj => (cell_of_position small (inside j hj)).1, ?_⟩
  intro i hi j hj same
  rw [bytesIn_inj] at same
  refine different i hi j hj ?_
  rw [← (cell_of_position small (inside i hi)).2, same, (cell_of_position small (inside j hj)).2]

/-- The places of a forward span inside a buffer lie apart. -/
theorem forward_apart {b : Buffer} {i n : Nat} (inside : (i + n) * f.bytesPerPixel ≤ b.size)
    (small : b.size < UInt64.size) :
    (∀ j < n, ((forward (UInt64.ofNat i)).advance j).Fits f b.size) ∧
      (forward (UInt64.ofNat i)).Apart f n := by
  have index : (UInt64.ofNat i).toNat = i := by
    have bytes := Nat.le_mul_of_pos_right (i + n) f.bytesPerPixel_pos
    exact UInt64.toNat_ofNat_of_lt (by omega)
  have position : ∀ j, (forward (UInt64.ofNat i)).position j = (i + j : Nat) := by
    intro j
    have one : (forward (UInt64.ofNat i)).step.toInt = 1 := rfl
    rw [Location.position, one, Int.one_mul, Int.natCast_add]
    exact congrArg (fun k : Nat => (k : Int) + j) index
  refine apart_of_position small ?_ ?_
  · intro j hj
    have room := Operation.place_inside hj inside
    rw [position]
    exact ⟨Int.natCast_nonneg _, by exact_mod_cast room⟩
  · intro j _ k _ same
    rw [position, position, Int.ofNat_inj] at same
    exact Nat.add_left_cancel same

/-- A reversed span goes back one place after the other. -/
theorem index_reversed_advance {k j : Nat} (hj : j ≤ k) :
    ((reversed (UInt64.ofNat k)).advance j).index = UInt64.ofNat (k - j) := by
  have back : (-1 : Int64).toUInt64 = -1 := rfl
  have split : UInt64.ofNat k = UInt64.ofNat (k - j) + UInt64.ofNat j := by
    rw [← UInt64.ofNat_add, Nat.sub_add_cancel hj]
  show UInt64.ofNat k + (-1 : Int64).toUInt64 * UInt64.ofNat j = UInt64.ofNat (k - j)
  rw [back, split, UInt64.neg_mul, UInt64.one_mul, ← UInt64.sub_eq_add_neg,
    UInt64.add_sub_cancel]

end Location

/-! ### Changes in places of any order -/

namespace Buffer

/-- The changes `change 0, …, change (n - 1)` one after the other, the `i`-th in `place i`. -/
def along (place : Nat → Nat) (change : Nat → Color f → Color f) (n k : Nat) (d : Color f) :
    Color f :=
  (List.range n).foldl (fun d i => inPlace (place i) (change i) k d) d

variable {b : Buffer} {place : Nat → Nat} {change : Nat → Color f → Color f} {n : Nat}

theorem along_zero (k : Nat) (d : Color f) : along place change 0 k d = d := rfl

theorem along_succ (k : Nat) (d : Color f) :
    along place change (n + 1) k d =
      inPlace (place n) (change n) k (along place change n k d) := by
  rw [along, List.range_succ, List.foldl_append]
  rfl

/-- Nothing changes where none of the places is. -/
theorem along_of_ne {k : Nat} (other : ∀ i < n, place i ≠ k) (d : Color f) :
    along place change n k d = d := by
  induction n with
  | zero => rfl
  | succ n ih =>
      rw [along_succ, inPlace_of_ne (other n (Nat.lt_succ_self n)).symm,
        ih fun i hi => other i (Nat.lt_succ_of_lt hi)]

/-- Where one place only is, its change is the only one. -/
theorem along_place {i : Nat} (hi : i < n) (only : ∀ j < n, place j = place i → j = i)
    (d : Color f) : along place change n (place i) d = change i d := by
  induction n with
  | zero => omega
  | succ n ih =>
      have before : ∀ j < n, place j = place i → j = i :=
        fun j hj => only j (Nat.lt_succ_of_lt hj)
      rw [along_succ]
      rcases Nat.lt_succ_iff_lt_or_eq.mp hi with earlier | rfl
      · have apart : place i ≠ place n := by
          intro same
          have := only n (Nat.lt_succ_self n) same.symm
          omega
        rw [ih earlier before, inPlace_of_ne apart]
      · have untouched : ∀ j < i, place j ≠ place i := by
          intro j hj same
          have := before j hj same
          omega
        rw [inPlace_self, along_of_ne untouched]

/-- A loop that changes one place after the other, in whichever order they lie. -/
theorem sweep_along {step : Nat → Buffer → Outcome Fault Buffer}
    (each : ∀ i < n, ∀ b' : Buffer, b'.size = b.size →
      step i b' = .finished (mapCells (inPlace (place i) (change i)) b')) :
    Outcome.sweep step 0 n b = .finished (mapCells (along place change n) b) :=
  sweep_eq_mapCells (fun i => inPlace (place i) (change i)) (along place change) along_zero
    (fun _ _ k d => (along_succ k d).symm) each

/-- What a pixel of the buffer reads after its colors were changed. -/
theorem pixel?_mapCells {l : Location} (fits : l.Fits f b.size) (g : Nat → Color f → Color f) :
    pixel? f (mapCells g b) l = (pixel? f b l).map (g (l.cell f)) := by
  have fits' : l.Fits f (mapCells g b).size := by rwa [size_mapCells]
  rw [pixel?_eq_cell? fits, pixel?_eq_cell? fits', cell?_mapCells]

/-- Which pixel a location reads does not depend on its step. -/
theorem pixel?_congr {l l' : Location} (index : l.index = l'.index) :
    pixel? f b l = pixel? f b l' := by
  cases l
  cases l'
  cases index
  rfl

/-- A byte is kept if the color in its place is. -/
theorem getElem?_mapCells_of_same {g : Nat → Color f → Color f} {j : Nat}
    (same : ∀ d, g (j / f.bytesPerPixel) d = d) : (mapCells g b)[j]? = b[j]? := by
  cases there : cell? f b (j / f.bytesPerPixel) with
  | none => exact getElem?_mapCells_of_none there
  | some d =>
      have within := Nat.mod_lt j f.bytesPerPixel_pos
      have after := getElem?_mapCells_of_some (g := g) there within
      have before := getElem?_of_cell? there within
      rw [place_add_rest, same] at after
      rw [place_add_rest] at before
      exact after.trans before.symm

/-! ### Drawing along a span -/

/-- `b'` is `b` with the first `n` places of a span drawn over, where `source` has the sources of
the places by their number. -/
structure DrawnAlong (b : Buffer) (op : Operation f s) (start : Location) (n : Nat)
    (source : Nat → Option (Color s)) (b' : Buffer) : Prop where
  size : b'.size = b.size
  /-- Every place is drawn over, from what it was before the first of them was. -/
  drawn : ∀ i < n, ∃ d c r, pixel? f b (start.advance i) = some d ∧ source i = some c ∧
    pixel? f b' (start.advance i) = some r ∧ op.Draws d c r
  /-- No byte is written outside the places. -/
  kept : ∀ j, (∀ i < n, ¬ ((start.advance i).bytesIn f).Contains j) → b'[j]? = b[j]?

/-- The changes along a span whose places lie apart draw it over. -/
theorem drawnAlong_mapCells {op : Operation f s} {start : Location}
    {source : Nat → Option (Color s)} {colors : Nat → Color s}
    (fits : ∀ i < n, (start.advance i).Fits f b.size) (apart : start.Apart f n)
    (all : ∀ i < n, source i = some (colors i)) :
    DrawnAlong b op start n source (mapCells
      (along (fun i => (start.advance i).cell f) (fun i d => op.result d (colors i)) n) b) where
  size := size_mapCells ..
  drawn := by
    intro i hi
    obtain ⟨d, there⟩ := Option.isSome_iff_exists.mp (isSome_pixel?.mpr (fits i hi))
    have only : ∀ j < n, (start.advance j).cell f = (start.advance i).cell f → j = i :=
      fun j hj same => apart j hj i hi (Location.bytesIn_inj.mpr same)
    refine ⟨d, colors i, op.result d (colors i), there, all i hi, ?_, op.draws_result _ _⟩
    rw [pixel?_mapCells (fits i hi), there, Option.map_some, along_place hi only]
  kept := by
    intro j outside
    refine getElem?_mapCells_of_same ?_
    refine along_of_ne ?_
    intro i hi same
    exact outside i hi ((Location.contains_bytesIn_iff (fits i hi) j).mpr same.symm)

end Buffer

namespace Operation

open Buffer

variable {b src : Buffer} {start source : Location} {n : Nat}

/-- A fill makes its changes along the span. -/
theorem fillPixels_eq_along (op : Operation f s) (c : Color s)
    (fits : ∀ i < n, (start.advance i).Fits f b.size) :
    op.fillPixels b start n c = .finished (mapCells
      (along (fun i => (start.advance i).cell f) (fun _ d => op.result d c) n) b) := by
  rw [fillPixels_eq_sweep]
  refine sweep_along ?_
  intro i hi b' size
  exact op.put_eq_mapCells c (by rw [size]; exact fits i hi)

/-- So does a copy, each with the color of its source. -/
theorem copyPixels_eq_along (op : Operation f s) {colors : Nat → Color s}
    (fits : ∀ i < n, (start.advance i).Fits f b.size)
    (colored : ∀ i < n, pixel? s src (source.advance i) = some (colors i)) :
    op.copyPixels b start src source n = .finished (mapCells
      (along (fun i => (start.advance i).cell f) (fun i d => op.result d (colors i)) n) b) := by
  rw [copyPixels]
  refine sweep_along ?_
  intro i hi b' size
  rw [putFrom, colored i hi]
  exact op.put_eq_mapCells _ (by rw [size]; exact fits i hi)

end Operation

/-! ### Columns -/

namespace Framebuffer

theorem cell_locate (fb : Framebuffer f) {x y : Nat} (hx : x < fb.width.toNat)
    (hy : y < fb.height.toNat) : (fb.locate x y).cell f = fb.place x y := by
  have inside := fb.toGeometry.place_inside f (n := 1) hx hy
  have small := fb.byteLength_lt
  rw [Nat.succ_mul] at inside
  refine Location.cell_forward ?_
  show fb.place x y * f.bytesPerPixel < UInt64.size
  omega

/-- A column that is granted lies in the picture. -/
theorem columnSpan_inside {fb : Framebuffer f} {x y n : UInt32} {start : Location}
    (granted : fb.columnSpan x y n = .ok start) :
    x.toNat < fb.width.toNat ∧ y.toNat + n.toNat ≤ fb.height.toNat := by
  obtain ⟨column, bottom⟩ := (fb.isOk_columnSpan_iff x y n).mp ⟨start, granted⟩
  exact ⟨UInt32.lt_iff_toNat_lt.mp column, bottom⟩

/-- The places of a column that is granted are those of its pixels. -/
theorem columnSpan_advance {fb : Framebuffer f} {x y n : UInt32} {start : Location}
    (granted : fb.columnSpan x y n = .ok start) {i : Nat} (hi : i < n.toNat) :
    (start.advance i).Fits f fb.bytes.size ∧
      (start.advance i).cell f = fb.place x.toNat (y.toNat + i) := by
  obtain ⟨column, bottom⟩ := columnSpan_inside granted
  have row : y.toNat + i < fb.height.toNat := by omega
  have index : (start.advance i).index = (fb.locate x.toNat (y.toNat + i)).index := by
    rw [fb.eq_locateColumn_of_columnSpan granted (Nat.zero_lt_of_lt hi), Location.advance_advance]
    exact fb.index_locateColumn_advance x.toNat row
  have bytes : (start.advance i).bytesIn f = (fb.locate x.toNat (y.toNat + i)).bytesIn f :=
    Location.bytesIn_congr index
  refine ⟨?_, ?_⟩
  · rw [Location.Fits, bytes, fb.size_bytes]
    exact fb.fits_locate f column row fb.byteLength_lt
  · rw [Location.bytesIn_inj.mp bytes, fb.cell_locate column row]

/-- The places of a span that is granted are those of its pixels. -/
theorem span_advance {fb : Framebuffer f} {x y n : UInt32} {start : Location}
    (granted : fb.span x y n = .ok start) {i : Nat} (hi : i < n.toNat) :
    (x.toNat + i < fb.width.toNat ∧ y.toNat < fb.height.toNat) ∧
      (start.advance i).Fits f fb.bytes.size ∧
      (start.advance i).cell f = fb.place (x.toNat + i) y.toNat := by
  obtain ⟨row, right⟩ := (fb.isOk_span_iff x y n).mp ⟨start, granted⟩
  rw [UInt32.lt_iff_toNat_lt] at row
  have column : x.toNat + i < fb.width.toNat := by omega
  rw [fb.eq_locate_of_span granted (Nat.zero_lt_of_lt hi), fb.locate_advance, fb.size_bytes]
  exact ⟨⟨column, row⟩, fb.fits_locate f column row fb.byteLength_lt, fb.cell_locate column row⟩

/-- To change the places of a column is to change its pixels. -/
theorem draw_column {fb : Framebuffer f} {work : Buffer → Outcome Fault Buffer}
    {keeps : ∀ b, (work b).state.size = b.size} {x y n : UInt32} {start : Location}
    {change : Nat → Color f → Color f} (granted : fb.columnSpan x y n = .ok start)
    (done : work fb.bytes = .finished (Buffer.mapCells
      (Buffer.along (fun i => (start.advance i).cell f) change n.toNat) fb.bytes)) :
    fb.draw work keeps =
      .finished (fb.mapPixels ((⟨x, y, 1, n⟩ : Band).inside fun _ dy => change dy)) := by
  obtain ⟨column, bottom⟩ := columnSpan_inside granted
  refine draw_eq_mapPixels done ?_
  intro X Y d hX hY
  have here : ∀ i < n.toNat, (start.advance i).cell f = fb.place X Y ↔
      x.toNat = X ∧ y.toNat + i = Y := by
    intro i hi
    rw [(columnSpan_advance granted hi).2]
    exact fb.place_inj hX hY column (by omega)
  by_cases within : (⟨x, y, 1, n⟩ : Band).Contains X Y
  · obtain ⟨sameColumn, low, high⟩ := Band.contains_column.mp within
    have hi : Y - y.toNat < n.toNat := by omega
    have place := (here _ hi).mpr ⟨sameColumn, by omega⟩
    have only : ∀ j < n.toNat, (start.advance j).cell f = (start.advance (Y - y.toNat)).cell f →
        j = Y - y.toNat := by
      intro j hj same
      have row := ((here j hj).mp (same.trans place)).2
      omega
    rw [Band.inside_of_contains within, ← place]
    exact Buffer.along_place hi only d
  · rw [Band.inside_of_not_contains within]
    refine Buffer.along_of_ne ?_ d
    intro i hi same
    have pixel := (here i hi).mp same
    exact within (Band.contains_column.mpr ⟨pixel.1, by omega⟩)

end Framebuffer

/-! ### Spans of any step -/

namespace Operation

open Buffer

/-- A span of consecutive pixels is drawn over with the sources of another one in reverse, if
these are taken with a step of -1. -/
def Mirrors (op : Operation f s) : Prop :=
  ∀ (b src : Buffer) (i k n : Nat), b.size < UInt64.size → src.size < UInt64.size →
    (i + n) * f.bytesPerPixel ≤ b.size → n ≤ k + 1 → (k + 1) * s.bytesPerPixel ≤ src.size →
    ∃ b', op.copyPixels b (.forward (.ofNat i)) src (.reversed (.ofNat k)) n = .finished b' ∧
      b.DrawnAlong op (.forward (.ofNat i)) n
        (fun j => pixel? s src (.forward (.ofNat (k - j)))) b'

/-- A column of a picture, which has a step of a row's width, downward or upward in memory, is
drawn over from top to bottom. -/
def DrawsColumns (op : Operation f s) : Prop :=
  ∀ (fb : Framebuffer f) (x y n : UInt32) (start : Location),
    fb.columnSpan x y n = .ok start →
    (∀ c : Color s, ∃ fb', fb.fillAt op start n.toNat c = .finished fb' ∧
      fb.DrawnOver op ⟨x, y, 1, n⟩ (fun _ _ => some c) fb') ∧
    ∀ (src : Framebuffer s) (source : Location),
      (∀ i < n.toNat, (source.advance i).Fits s src.bytes.size) →
      ∃ fb', fb.copyAt op start src source n.toNat = .finished fb' ∧
        fb.DrawnOver op ⟨x, y, 1, n⟩ (fun _ dy => pixel? s src.bytes (source.advance dy)) fb'

/-- Every place of a span that fits has a source color. -/
theorem exists_colors {src : Buffer} {source : Location} {n : Nat}
    (fits : ∀ i < n, (source.advance i).Fits s src.size) :
    ∃ colors : Nat → Color s, ∀ i < n, pixel? s src (source.advance i) = some (colors i) := by
  refine ⟨fun i => (pixel? s src (source.advance i)).getD default, ?_⟩
  intro i hi
  obtain ⟨c, hc⟩ := Option.isSome_iff_exists.mp (isSome_pixel?.mpr (fits i hi))
  simp only [hc, Option.getD_some]

/-- A copy along a span whose places lie apart draws it over. -/
theorem copyPixels_drawnAlong (op : Operation f s) {b src : Buffer} {start source : Location}
    {n : Nat} (fits : ∀ i < n, (start.advance i).Fits f b.size) (apart : start.Apart f n)
    (fitsSrc : ∀ i < n, (source.advance i).Fits s src.size) :
    ∃ b', op.copyPixels b start src source n = .finished b' ∧
      b.DrawnAlong op start n (fun i => pixel? s src (source.advance i)) b' := by
  obtain ⟨colors, colored⟩ := exists_colors fitsSrc
  exact ⟨_, op.copyPixels_eq_along fits colored, drawnAlong_mapCells fits apart colored⟩

theorem mirrors (op : Operation f s) : op.Mirrors := by
  intro b src i k n small smallSrc inside length insideSrc
  obtain ⟨fits, apart⟩ := Location.forward_apart inside small
  have back : ∀ j < n, (((Location.reversed (.ofNat k)).advance j).bytesIn s) =
      (Location.forward (.ofNat (k - j))).bytesIn s :=
    fun j hj => Location.bytesIn_congr (Location.index_reversed_advance (by omega))
  have fitsSrc : ∀ j < n, ((Location.reversed (.ofNat k)).advance j).Fits s src.size := by
    intro j hj
    have room : (k - j + 1) * s.bytesPerPixel ≤ src.size :=
      Nat.le_trans (Nat.mul_le_mul_right _ (by omega)) insideSrc
    rw [Location.Fits, back j hj]
    exact (Location.forward_fits room smallSrc).1
  obtain ⟨b', done, drawn⟩ := op.copyPixels_drawnAlong fits apart fitsSrc
  refine ⟨b', done, drawn.size, ?_, drawn.kept⟩
  intro j hj
  have source : pixel? s src ((Location.reversed (.ofNat k)).advance j) =
      pixel? s src (.forward (.ofNat (k - j))) :=
    pixel?_congr (Location.index_reversed_advance (by omega))
  rw [← source]
  exact drawn.drawn j hj

theorem drawsColumns (op : Operation f s) : op.DrawsColumns := by
  intro fb x y n start granted
  obtain ⟨column, bottom⟩ := Framebuffer.columnSpan_inside granted
  have inPicture : (⟨x, y, 1, n⟩ : Band).Fits fb.width fb.height := ⟨column, bottom⟩
  have fits : ∀ i < n.toNat, (start.advance i).Fits f fb.bytes.size :=
    fun i hi => (Framebuffer.columnSpan_advance granted hi).1
  constructor
  · intro c
    exact ⟨_, Framebuffer.draw_column granted (op.fillPixels_eq_along c fits),
      Framebuffer.drawnOver_inside inPicture fun _ _ _ _ => rfl⟩
  · intro src source fitsSrc
    obtain ⟨colors, colored⟩ := exists_colors fitsSrc
    exact ⟨_, Framebuffer.draw_column granted (op.copyPixels_eq_along fits colored),
      Framebuffer.drawnOver_inside inPicture fun _ dy _ hy => colored dy hy⟩

/-- A span that fits its buffer and whose places lie apart is drawn over, filled or copied, with
any step and wherever its sources are, and no byte besides. Places are told apart by their bytes in
the buffer: two indices a turn apart (2⁶⁴ over the bytes of a pixel) are one place. That holds of
spans that are mirrored and of columns in particular. -/
theorem spans_drawn_along (op : Operation f s) (b src : Buffer) (start source : Location)
    (n : Nat) (c : Color s) (fits : ∀ i < n, (start.advance i).Fits f b.size)
    (apart : start.Apart f n) :
    (∃ b', op.fillPixels b start n c = .finished b' ∧
      b.DrawnAlong op start n (fun _ => some c) b') ∧
    ((∀ i < n, (source.advance i).Fits s src.size) →
      ∃ b', op.copyPixels b start src source n = .finished b' ∧
        b.DrawnAlong op start n (fun i => pixel? s src (source.advance i)) b') ∧
    op.Mirrors ∧ op.DrawsColumns := by
  refine ⟨?_, ?_, op.mirrors, op.drawsColumns⟩
  · exact ⟨_, op.fillPixels_eq_along c fits, drawnAlong_mapCells fits apart fun _ _ => rfl⟩
  · intro fitsSrc
    exact op.copyPixels_drawnAlong fits apart fitsSrc

/-- The last and the first of three pixels, blended in this order. The index is so large that the
bytes of both are found by going around the address space. -/
theorem spans_drawn_along_backward :
    let b : Buffer := #[1, 2, 3, 4, 5, 6]
    let src : Buffer := #[7, 8, 9, 10]
    let op : Operation .rgb565 .rgb565 := .blend 128
    let start : Location := ⟨9223372036854775810, -2⟩
    let source : Location := .forward 0
    (∀ i < 2, (start.advance i).Fits .rgb565 b.size) ∧ start.Apart .rgb565 2 ∧
      (∀ i < 2, (source.advance i).Fits .rgb565 src.size) ∧
      ∃ b', op.copyPixels b start src source 2 = .finished b' ∧
        b.DrawnAlong op start 2 (fun i => pixel? .rgb565 src (source.advance i)) b' := by
  intro b src op start source
  have fits : ∀ i < 2, (start.advance i).Fits .rgb565 b.size := by decide
  have apart : start.Apart .rgb565 2 := by
    unfold Location.Apart
    decide
  have fitsSrc : ∀ i < 2, (source.advance i).Fits .rgb565 src.size := by decide
  have law := spans_drawn_along op b src start source 2 (.rgb565 0) fits apart
  exact ⟨fits, apart, fitsSrc, law.2.1 fitsSrc⟩

end Operation

end Raster
