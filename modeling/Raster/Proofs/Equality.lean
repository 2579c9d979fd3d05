import Raster.Proofs.Pixels
/-!
# What a framebuffer is known by

Two framebuffers of one format are equal if their geometries and all their bytes are. There is
nothing in the bytes that does not show in a pixel: every byte belongs to a place, every place is
that of a pixel, and colors with different bytes are different. So framebuffers of one geometry with
the same pixels are equal (`Framebuffer.ext_pixels`), however they were made and whatever was drawn
into them.

If the geometries differ in the order of the rows only, equal pixels are not equal bytes. The bytes
of one are then those of the other with the rows in memory turned around
(`Framebuffer.pixel?_eq_of_turned`), and that is the only way to have these pixels in that order.
`equal_iff_pixels` says both.
-/

namespace Raster

variable {f : PixelFormat}

/-! ### Bytes in pieces -/

namespace Buffer

/-- The first `count` pieces of `length` bytes that a buffer is cut into. -/
def pieces (b : Buffer) (length count : Nat) : List (List UInt8) :=
  (List.range count).map fun i => (b.extract (i * length) ((i + 1) * length)).toList

@[simp] theorem length_pieces (b : Buffer) (length count : Nat) :
    (b.pieces length count).length = count := by
  simp [pieces]

/-- Put together, the pieces are as much of the buffer as they are long. -/
theorem flatten_pieces (b : Buffer) (length count : Nat) :
    (b.pieces length count).flatten = (b.extract 0 (count * length)).toList := by
  induction count with
  | zero => simp [pieces]
  | succ count ih =>
      have grows : count * length ≤ (count + 1) * length :=
        Nat.mul_le_mul_right length (Nat.le_succ count)
      have last :
          b.extract 0 (count * length) ++ b.extract (count * length) ((count + 1) * length) =
            b.extract 0 ((count + 1) * length) := by
        rw [Array.extract_append_extract, Nat.zero_min, Nat.max_eq_right grows]
      rw [pieces] at ih ⊢
      rw [List.range_succ, List.map_append, List.flatten_append, ih, ← last, Array.toList_append]
      simp

theorem length_of_mem_pieces {b : Buffer} {length count : Nat} (size : b.size = count * length)
    {row : List UInt8} (mem : row ∈ b.pieces length count) : row.length = length := by
  obtain ⟨i, hi, rfl⟩ := List.mem_map.mp mem
  have inside := Nat.mul_le_mul_right length (List.mem_range.mp hi)
  rw [Array.length_toList, Array.size_extract, size, Nat.min_eq_left inside, Nat.succ_mul,
    Nat.add_sub_cancel_left]

/-- The elements of lists of one length, one list after the other. -/
theorem getElem?_flatten_of_length {α : Type} {rows : List (List α)} {length : Nat}
    (even : ∀ row ∈ rows, row.length = length) (i : Nat) {k : Nat} (hk : k < length) :
    rows.flatten[i * length + k]? = rows[i]?.bind (·[k]?) := by
  induction rows generalizing i with
  | nil => rfl
  | cons row rows ih =>
      obtain ⟨first, rest⟩ := List.forall_mem_cons.mp even
      rw [List.flatten_cons]
      cases i with
      | zero =>
          rw [Nat.zero_mul, Nat.zero_add, List.getElem?_append_left (first ▸ hk)]
          rfl
      | succ i =>
          have later : (i + 1) * length + k = row.length + (i * length + k) := by
            rw [first, Nat.succ_mul]
            omega
          rw [later, List.getElem?_append_right (Nat.le_add_right _ _), Nat.add_sub_cancel_left,
            ih rest]
          rfl

/-- Buffers of as many whole pixels with the same colors are the same. -/
theorem ext_places {b b' : Buffer} {k : Nat} (size : b.size = k * f.bytesPerPixel)
    (size' : b'.size = k * f.bytesPerPixel) (places : ∀ i < k, cell? f b i = cell? f b' i) :
    b = b' := by
  have same : b.size = b'.size := size.trans size'.symm
  have inside (i : Nat) : (cell? f b i).isSome ↔ i < k := by
    rw [isSome_cell?, size, Nat.mul_le_mul_right_iff f.bytesPerPixel_pos, Nat.succ_le_iff]
  refine ext_cells f ?_ ?_
  · intro i
    cases there : cell? f b i with
    | none => exact (cell?_eq_none_of_size same there).symm
    | some d => rw [← there, places i ((inside i).mp (there ▸ rfl))]
  · intro j absent
    -- All bytes belong to pixels, and so this one is beyond the end.
    have beyond : b.size ≤ j := by
      rw [← Option.not_isSome_iff_eq_none, inside, Nat.not_lt,
        Nat.le_div_iff_mul_le f.bytesPerPixel_pos] at absent
      rwa [size]
    rw [Array.getElem?_eq_none beyond, Array.getElem?_eq_none (same ▸ beyond)]

end Buffer

/-- In rows that lie the other way round, a row is as far from the end as it was from the start. -/
theorem Geometry.storageRow_of_ne {g g' : Geometry} (height : g.height = g'.height)
    (order : g.order ≠ g'.order) {y : Nat} (hy : y < g.height.toNat) :
    g.storageRow y = g.height.toNat - 1 - g'.storageRow y := by
  cases horder : g.order with
  | topDown =>
      cases horder' : g'.order with
      | topDown => exact absurd (horder.trans horder'.symm) order
      | bottomUp =>
          simp only [storageRow, horder, horder', ← height]
          omega
  | bottomUp =>
      cases horder' : g'.order with
      | topDown => simp only [storageRow, horder, horder']
      | bottomUp => exact absurd (horder.trans horder'.symm) order

open Buffer

namespace Framebuffer

variable {fb fb' : Framebuffer f} {rows : List (List UInt8)} {x y : Nat}

/-! ### The same geometry -/

/-- The color in a place is the pixel that the place is of. -/
theorem cell?_eq_pixel? (fb : Framebuffer f) {k : Nat}
    (hk : k < fb.width.toNat * fb.height.toNat) :
    cell? f fb.bytes k = fb.pixel? (k % fb.width.toNat) (fb.storageRow (k / fb.width.toNat)) := by
  have column : k % fb.width.toNat < fb.width.toNat :=
    Nat.mod_lt _ (Nat.pos_of_mul_pos_right (Nat.zero_lt_of_lt hk))
  have row : k / fb.width.toNat < fb.height.toNat := Nat.div_lt_of_lt_mul hk
  rw [fb.pixel?_eq_cell? column (fb.storageRow_lt row), fb.place_of_lt row]

/-- Framebuffers of one geometry that have the same pixels are equal. -/
theorem ext_pixels (geometry : fb.toGeometry = fb'.toGeometry)
    (pixels : ∀ x y, x < fb.width.toNat → y < fb.height.toNat → fb.pixel? x y = fb'.pixel? x y) :
    fb = fb' := by
  have size' : fb'.bytes.size = fb.byteLength f := by rw [fb'.size_bytes, geometry]
  refine ext_bytes geometry (ext_places fb.size_bytes size' ?_)
  intro k inside
  have column : k % fb.width.toNat < fb.width.toNat :=
    Nat.mod_lt _ (Nat.pos_of_mul_pos_right (Nat.zero_lt_of_lt inside))
  have row : k / fb.width.toNat < fb.height.toNat := Nat.div_lt_of_lt_mul inside
  rw [fb.cell?_eq_pixel? inside, pixels _ _ column (fb.storageRow_lt row), geometry,
    fb'.cell?_eq_pixel? (geometry ▸ inside)]

/-! ### The other order -/

/-- Where the bytes of a pixel lie: in its row, after those of the pixels to its left. -/
theorem place_mul_add (g : Geometry) (x y k : Nat) :
    g.place x y * f.bytesPerPixel + k =
      g.storageRow y * g.pitch f + (x * f.bytesPerPixel + k) := by
  rw [Geometry.place, Geometry.pitch, Nat.add_mul, Nat.mul_assoc, Nat.add_assoc]

/-- The framebuffer whose bytes are some rows, one after the other. -/
def ofRows (g : Geometry) (rows : List (List UInt8)) (size : rows.flatten.length = g.byteLength f)
    (small : g.byteLength f < UInt64.size) : Framebuffer f where
  toGeometry := g
  bytes := rows.flatten.toArray
  size_bytes := by rw [List.size_toArray, size]
  size_lt := by rw [List.size_toArray, size]; exact small

/-- Rows that are turned around in memory, and are taken for turned around, show the same. -/
theorem pixel?_eq_of_turned (width : fb.width = fb'.width) (height : fb.height = fb'.height)
    (order : fb.order ≠ fb'.order) (count : rows.length = fb.height.toNat)
    (even : ∀ row ∈ rows, row.length = fb.pitch f) (bytes : fb.bytes.toList = rows.flatten)
    (bytes' : fb'.bytes.toList = rows.reverse.flatten) (hx : x < fb.width.toNat)
    (hy : y < fb.height.toNat) : fb.pixel? x y = fb'.pixel? x y := by
  have pitch : fb.pitch f = fb'.pitch f := by rw [Geometry.pitch, width, Geometry.pitch]
  have turned := Geometry.storageRow_of_ne height order hy
  have stored : fb'.storageRow y < rows.length := by
    rw [count, height]
    exact fb'.storageRow_lt (height ▸ hy)
  rw [fb.pixel?_eq_cell? hx hy, fb'.pixel?_eq_cell? (width ▸ hx) (height ▸ hy)]
  refine cell?_congr ?_
  intro k hk
  have within : x * f.bytesPerPixel + k < fb.pitch f := by
    have := place_end_le f.bytesPerPixel hx
    rw [Geometry.pitch]
    omega
  rw [← Array.getElem?_toList, ← Array.getElem?_toList, bytes, bytes', place_mul_add,
    place_mul_add, ← pitch, getElem?_flatten_of_length even _ within,
    getElem?_flatten_of_length (fun row mem => even row (List.mem_reverse.mp mem)) _ within,
    List.getElem?_reverse stored, count, turned]

/-- And what shows the same has its rows turned around. -/
theorem exists_turned (width : fb.width = fb'.width) (height : fb.height = fb'.height)
    (order : fb.order ≠ fb'.order)
    (pixels : ∀ x y, x < fb.width.toNat → y < fb.height.toNat → fb.pixel? x y = fb'.pixel? x y) :
    ∃ rows : List (List UInt8), rows.length = fb.height.toNat ∧
      (∀ row ∈ rows, row.length = fb.pitch f) ∧ fb.bytes.toList = rows.flatten ∧
      fb'.bytes.toList = rows.reverse.flatten := by
  have size : fb.bytes.size = fb.height.toNat * fb.pitch f := by
    rw [fb.size_bytes, fb.byteLength_eq]
    rfl
  let rows := fb.bytes.pieces (fb.pitch f) fb.height.toNat
  have bytes : rows.flatten = fb.bytes.toList := by
    rw [flatten_pieces, ← size, Array.extract_size]
  have turnedSize : rows.reverse.flatten.length = fb'.byteLength f := by
    have whole : rows.flatten.length = fb'.byteLength f := by
      rw [bytes, Array.length_toList, fb.size_bytes, Geometry.byteLength, width, height]
      rfl
    rw [← whole, List.length_flatten, List.length_flatten, List.map_reverse, List.sum_reverse]
  have even : ∀ row ∈ rows, row.length = fb.pitch f := fun row mem => length_of_mem_pieces size mem
  -- The rows turned around, taken for a framebuffer like the other one, are that one.
  have same : fb' = ofRows fb'.toGeometry rows.reverse turnedSize fb'.byteLength_lt := by
    refine ext_pixels rfl ?_
    intro x y hx hy
    rw [← pixels x y (width ▸ hx) (height ▸ hy)]
    exact pixel?_eq_of_turned width height order (length_pieces ..) even bytes.symm rfl
      (width ▸ hx) (height ▸ hy)
  refine ⟨rows, length_pieces .., even, bytes.symm, ?_⟩
  rw [same]
  rfl

/-- Two framebuffers of one format, whatever they have been through, are equal exactly if they have
the same size, the same order of rows and the same pixels. If they have the same size and different
orders of rows, they have the same pixels exactly if their bytes are the same rows, each as long as
a row of pixels, in one order and in the reverse of it. -/
theorem equal_iff_pixels (fb fb' : Framebuffer f) :
    (fb = fb' ↔ fb.width = fb'.width ∧ fb.height = fb'.height ∧ fb.order = fb'.order ∧
      ∀ x y, x < fb.width.toNat → y < fb.height.toNat → fb.pixel? x y = fb'.pixel? x y) ∧
    (fb.width = fb'.width → fb.height = fb'.height → fb.order ≠ fb'.order →
      ((∀ x y, x < fb.width.toNat → y < fb.height.toNat → fb.pixel? x y = fb'.pixel? x y) ↔
        ∃ rows : List (List UInt8), rows.length = fb.height.toNat ∧
          (∀ row ∈ rows, row.length = fb.pitch f) ∧ fb.bytes.toList = rows.flatten ∧
          fb'.bytes.toList = rows.reverse.flatten)) := by
  constructor
  · constructor
    · rintro rfl
      exact ⟨rfl, rfl, rfl, fun _ _ _ _ => rfl⟩
    · rintro ⟨width, height, order, pixels⟩
      refine ext_pixels ?_ pixels
      cases hg : fb.toGeometry
      cases hg' : fb'.toGeometry
      simp_all
  · intro width height order
    constructor
    · exact exists_turned width height order
    · rintro ⟨rows, count, even, bytes, bytes'⟩ x y hx hy
      exact pixel?_eq_of_turned width height order count even bytes bytes' hx hy

/-- Two rows of two pixels, stored in both orders. They show the same and are not equal. -/
theorem equal_iff_pixels_turned :
    let fb : Framebuffer .rgb565 :=
      ⟨⟨2, 2, .topDown⟩, #[1, 2, 3, 4, 5, 6, 7, 8], rfl, by decide⟩
    let fb' : Framebuffer .rgb565 :=
      ⟨⟨2, 2, .bottomUp⟩, #[5, 6, 7, 8, 1, 2, 3, 4], rfl, by decide⟩
    fb ≠ fb' ∧ ∀ x y, x < 2 → y < 2 → fb.pixel? x y = fb'.pixel? x y := by
  intro fb fb'
  obtain ⟨equal, turned⟩ := equal_iff_pixels fb fb'
  constructor
  · intro same
    exact absurd (equal.mp same).2.2.1 (by decide)
  · exact (turned rfl rfl (by decide)).mpr ⟨[[1, 2, 3, 4], [5, 6, 7, 8]], rfl, by decide, rfl, rfl⟩

end Framebuffer

end Raster
