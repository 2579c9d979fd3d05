import Raster.Buffer
/-!
# Buffers as arrays of colors

A buffer in which pixels of one format follow each other from the start is an array of
colors. `cell?` is the color at a place of it, and `mapCells` is every change of colors
that there is: the color in each place goes through a function that may depend on the
place.

Drawing is reasoned about in these terms only. The laws are

* `cell?_mapCells` — what is in a place afterwards;
* `mapCells_mapCells`, `mapCells_congr`, `mapCells_id` — two changes are one, and a change
  is known by what it does to the colors that are there;
* `store_eq_mapCells` — writing one pixel is a change in one place;
* `sweep_eq_mapCells` — a loop of changes is the change they add up to.
-/

namespace Raster.Buffer

variable {f : PixelFormat} {b b' : Buffer}

/-! ### Reading places -/

/-- The color in the `i`-th place, if the buffer goes that far. -/
def cell? (f : PixelFormat) (b : Buffer) (i : Nat) : Option (Color f) :=
  colorAt? f b (i * f.bytesPerPixel)

/-- The bytes that a color is read from. -/
theorem getElem?_extract_pixel (b : Buffer) {w o k : Nat} (hk : k < w) :
    (b.extract o (o + w)).toList[k]? = b[o + k]? := by
  rw [Array.getElem?_toList, Array.getElem?_extract]
  split
  · rfl
  · rw [Array.getElem?_eq_none]
    omega

/-- A place ends where a later one starts, or before. -/
theorem place_end_le {i j : Nat} (w : Nat) (h : i < j) : i * w + w ≤ j * w := by
  rw [← Nat.succ_mul]
  exact Nat.mul_le_mul_right w h

/-- A place is inside the buffer exactly if its last byte is. -/
theorem isSome_cell? (f : PixelFormat) (b : Buffer) (i : Nat) :
    (cell? f b i).isSome ↔ (i + 1) * f.bytesPerPixel ≤ b.size := by
  have pos := f.bytesPerPixel_pos
  rw [cell?, colorAt?, Color.isSome_ofBytes?, Array.length_toList, Array.size_extract,
    Nat.succ_mul]
  omega

/-- Whether there is a color in a place depends on the number of bytes only. -/
theorem cell?_eq_none_of_size (size : b.size = b'.size) {i : Nat} (h : cell? f b i = none) :
    cell? f b' i = none := by
  rw [← Option.not_isSome_iff_eq_none, isSome_cell?] at h ⊢
  rwa [← size]

/-- The bytes of a place are those of its color. -/
theorem getElem?_of_cell? {i k : Nat} {c : Color f} (h : cell? f b i = some c)
    (hk : k < f.bytesPerPixel) : b[i * f.bytesPerPixel + k]? = c.bytes[k]? := by
  have read := Color.bytes_of_ofBytes? h
  rw [read, List.getElem?_take_of_lt hk, getElem?_extract_pixel b hk]

/-- A place that has the bytes of a color has this color. -/
theorem cell?_of_getElem? {i : Nat} {c : Color f}
    (h : ∀ k < f.bytesPerPixel, b[i * f.bytesPerPixel + k]? = c.bytes[k]?) :
    cell? f b i = some c := by
  have bytes : (b.extract (i * f.bytesPerPixel) (i * f.bytesPerPixel + f.bytesPerPixel)).toList =
      c.bytes := by
    refine List.ext_getElem? ?_
    intro k
    by_cases hk : k < f.bytesPerPixel
    · rw [getElem?_extract_pixel b hk, h k hk]
    · rw [List.getElem?_eq_none, List.getElem?_eq_none]
      · rw [Color.length_bytes]
        omega
      · rw [Array.length_toList, Array.size_extract]
        omega
  rw [cell?, colorAt?, bytes, Color.ofBytes?_bytes]

/-- Places with the same bytes have the same color. -/
theorem cell?_congr {i j : Nat}
    (h : ∀ k < f.bytesPerPixel,
      b[i * f.bytesPerPixel + k]? = b'[j * f.bytesPerPixel + k]?) :
    cell? f b i = cell? f b' j := by
  cases hc : cell? f b' j with
  | some c => exact cell?_of_getElem? fun k hk => (h k hk).trans (getElem?_of_cell? hc hk)
  | none =>
      -- The last byte is missing on one side, hence on the other.
      have pos := f.bytesPerPixel_pos
      have missing : ¬ (j + 1) * f.bytesPerPixel ≤ b'.size := by
        rw [← isSome_cell?, hc]
        simp
      have last := h (f.bytesPerPixel - 1) (by omega)
      rw [Nat.succ_mul] at missing
      have beyond : b'[j * f.bytesPerPixel + (f.bytesPerPixel - 1)]? = none :=
        Array.getElem?_eq_none (by omega)
      rw [beyond, Array.getElem?_eq_none_iff] at last
      have short : ¬ (cell? f b i).isSome := by
        rw [isSome_cell?, Nat.succ_mul]
        omega
      simpa using short

/-- Every byte belongs to a place. -/
theorem place_add_rest (f : PixelFormat) (j : Nat) :
    j / f.bytesPerPixel * f.bytesPerPixel + j % f.bytesPerPixel = j := Nat.div_add_mod' j _

/-- Buffers with the same colors, and the same bytes where there is no whole pixel, are the
same. -/
theorem ext_cells (f : PixelFormat) (cells : ∀ i, cell? f b i = cell? f b' i)
    (rest : ∀ j, cell? f b (j / f.bytesPerPixel) = none → b[j]? = b'[j]?) : b = b' := by
  refine Array.ext_getElem? ?_
  intro j
  cases h : cell? f b (j / f.bytesPerPixel) with
  | none => exact rest j h
  | some c =>
      have hk := Nat.mod_lt j f.bytesPerPixel_pos
      have left := getElem?_of_cell? h hk
      have right := getElem?_of_cell? ((cells _).symm.trans h) hk
      rw [place_add_rest] at left right
      exact left.trans right.symm

/-- The color in a place, or the zero color beyond the end. -/
def color (f : PixelFormat) (b : Buffer) (i : Nat) : Color f := (cell? f b i).getD default

theorem cell?_eq_color {i : Nat} (inside : (i + 1) * f.bytesPerPixel ≤ b.size) :
    cell? f b i = some (b.color f i) := by
  obtain ⟨c, hc⟩ := Option.isSome_iff_exists.mp ((isSome_cell? f b i).mpr inside)
  rw [color, hc, Option.getD_some]

/-! ### Changing colors -/

/-- Every color replaced by what `g` makes of it in its place. -/
def mapCells (g : Nat → Color f → Color f) (b : Buffer) : Buffer :=
  Array.ofFn fun j : Fin b.size =>
    match cell? f b (j / f.bytesPerPixel) with
    | some d => (g (j / f.bytesPerPixel) d).bytes.getD (j % f.bytesPerPixel) 0
    | none => b.getD j 0

@[simp] theorem size_mapCells (g : Nat → Color f → Color f) (b : Buffer) :
    (mapCells g b).size = b.size := Array.size_ofFn

theorem getElem?_mapCells_of_some {g : Nat → Color f → Color f} {i k : Nat} {d : Color f}
    (h : cell? f b i = some d) (hk : k < f.bytesPerPixel) :
    (mapCells g b)[i * f.bytesPerPixel + k]? = (g i d).bytes[k]? := by
  have inside : (i + 1) * f.bytesPerPixel ≤ b.size := by
    rw [← isSome_cell?, h]
    rfl
  have place : (i * f.bytesPerPixel + k) / f.bytesPerPixel = i := by
    rw [Nat.mul_comm, Nat.mul_add_div f.bytesPerPixel_pos, Nat.div_eq_of_lt hk, Nat.add_zero]
  have within : (i * f.bytesPerPixel + k) % f.bytesPerPixel = k := by
    rw [Nat.mul_comm, Nat.mul_add_mod, Nat.mod_eq_of_lt hk]
  have hk' : k < (g i d).bytes.length := by rwa [Color.length_bytes]
  rw [Nat.succ_mul] at inside
  rw [mapCells, Array.getElem?_ofFn, dif_pos (by omega)]
  simp only [place, within, h]
  rw [List.getD_eq_getElem?_getD, List.getElem?_eq_getElem hk', Option.getD_some]

theorem getElem?_mapCells_of_none {g : Nat → Color f → Color f} {j : Nat}
    (h : cell? f b (j / f.bytesPerPixel) = none) : (mapCells g b)[j]? = b[j]? := by
  rw [mapCells, Array.getElem?_ofFn]
  split
  · rename_i hj
    simp only [h]
    exact (Array.getElem?_eq_getElem hj).symm
  · rename_i hj
    exact (Array.getElem?_eq_none (by omega)).symm

/-- What is in a place afterwards. -/
@[simp] theorem cell?_mapCells (g : Nat → Color f → Color f) (b : Buffer) (i : Nat) :
    cell? f (mapCells g b) i = (cell? f b i).map (g i) := by
  cases h : cell? f b i with
  | some d => exact cell?_of_getElem? fun k hk => getElem?_mapCells_of_some h hk
  | none => exact cell?_eq_none_of_size (size_mapCells g b).symm h

/-- Two changes agree if they agree on the colors that are there. -/
theorem mapCells_congr {g g' : Nat → Color f → Color f}
    (h : ∀ i d, cell? f b i = some d → g i d = g' i d) : mapCells g b = mapCells g' b := by
  refine ext_cells f ?_ ?_
  · intro i
    rw [cell?_mapCells, cell?_mapCells]
    cases hd : cell? f b i with
    | none => rfl
    | some d => exact congrArg some (h i d hd)
  · intro j hj
    rw [cell?_mapCells, Option.map_eq_none_iff] at hj
    rw [getElem?_mapCells_of_none hj, getElem?_mapCells_of_none hj]

/-- One change after another is one change. -/
theorem mapCells_mapCells (g h : Nat → Color f → Color f) (b : Buffer) :
    mapCells h (mapCells g b) = mapCells (fun i d => h i (g i d)) b := by
  refine ext_cells f ?_ ?_
  · intro i
    simp only [cell?_mapCells, Option.map_map]
    rfl
  · intro j hj
    have hj' := hj
    simp only [cell?_mapCells, Option.map_eq_none_iff] at hj
    rw [cell?_mapCells, Option.map_eq_none_iff] at hj'
    rw [getElem?_mapCells_of_none hj', getElem?_mapCells_of_none hj,
      getElem?_mapCells_of_none hj]

/-- To leave every color as it is changes nothing. -/
theorem mapCells_id (b : Buffer) : mapCells (fun _ (d : Color f) => d) b = b := by
  refine ext_cells f ?_ ?_
  · intro i
    simp
  · intro j hj
    rw [cell?_mapCells, Option.map_eq_none_iff] at hj
    exact getElem?_mapCells_of_none hj

/-- A change in one place. -/
def inPlace (i : Nat) (g : Color f → Color f) (j : Nat) (d : Color f) : Color f :=
  if j = i then g d else d

theorem inPlace_self (i : Nat) (g : Color f → Color f) : inPlace i g i = g := by
  funext d
  exact if_pos rfl

theorem inPlace_of_ne {i j : Nat} (h : j ≠ i) (g : Color f → Color f) :
    inPlace i g j = fun d => d := by
  funext d
  exact if_neg h

/-- A change of `n` places from `start` on, each by its number. -/
def inRange (start n : Nat) (g : Nat → Color f → Color f) (i : Nat) (d : Color f) : Color f :=
  if start ≤ i ∧ i < start + n then g (i - start) d else d

theorem inRange_of_mem {start n i : Nat} {g : Nat → Color f → Color f} {d : Color f}
    (h : start ≤ i ∧ i < start + n) : inRange start n g i d = g (i - start) d := if_pos h

theorem inRange_of_not_mem {start n i : Nat} {g : Nat → Color f → Color f} {d : Color f}
    (h : ¬ (start ≤ i ∧ i < start + n)) : inRange start n g i d = d := if_neg h

/-- Only the changes of its places matter. -/
theorem inRange_congr {start n : Nat} {g g' : Nat → Color f → Color f}
    (h : ∀ j < n, g j = g' j) : inRange start n g = inRange start n g' := by
  funext i d
  by_cases within : start ≤ i ∧ i < start + n
  · rw [inRange_of_mem within, inRange_of_mem within, h _ (by omega)]
  · rw [inRange_of_not_mem within, inRange_of_not_mem within]

theorem inRange_zero (start : Nat) (g : Nat → Color f → Color f) (i : Nat) (d : Color f) :
    inRange start 0 g i d = d := if_neg (by omega)

/-- A range grows by the change of the place behind it. -/
theorem inPlace_inRange (start n : Nat) (g : Nat → Color f → Color f) (i : Nat) (d : Color f) :
    inPlace (start + n) (g n) i (inRange start n g i d) = inRange start (n + 1) g i d := by
  by_cases last : i = start + n
  · subst last
    rw [inPlace_self]
    simp only [inRange]
    rw [if_neg (by omega), if_pos (by omega), Nat.add_sub_cancel_left]
  · rw [inPlace_of_ne last]
    simp only [inRange]
    congr 1
    simp only [eq_iff_iff]
    omega

/-- To write the bytes of a color into a place is to change the color there. -/
theorem store_eq_mapCells {i : Nat} (c : Color f) (inside : (cell? f b i).isSome) :
    store b (i * f.bytesPerPixel) c.bytes = mapCells (inPlace i fun _ => c) b := by
  have room := (isSome_cell? f b i).mp inside
  rw [Nat.succ_mul] at room
  have length := Color.length_bytes c
  refine ext_cells f ?_ ?_
  · intro j
    rw [cell?_mapCells]
    by_cases hj : j = i
    · subst hj
      obtain ⟨d, hd⟩ := Option.isSome_iff_exists.mp inside
      rw [hd, inPlace_self, Option.map_some]
      refine cell?_of_getElem? ?_
      intro k hk
      rw [getElem?_store_of_mem (by omega) (by omega) (by omega)]
      congr 1
      omega
    · rw [inPlace_of_ne hj, Option.map_id']
      refine cell?_congr ?_
      intro k hk
      refine getElem?_store_of_not_mem ?_
      rcases Nat.lt_or_gt_of_ne hj with h | h
      · have before := place_end_le f.bytesPerPixel h
        omega
      · have behind := place_end_le f.bytesPerPixel h
        omega
  · intro j hj
    -- A byte without a pixel is not one of those that were written.
    have absent := cell?_eq_none_of_size (size_store b _ c.bytes) hj
    rw [getElem?_mapCells_of_none absent]
    refine getElem?_store_of_not_mem ?_
    refine Decidable.byContradiction ?_
    intro within
    have place : j / f.bytesPerPixel = i := by
      refine Nat.div_eq_of_lt_le ?_ ?_
      · omega
      · rw [Nat.succ_mul]
        omega
    rw [place] at absent
    rw [absent] at inside
    exact absurd inside Bool.false_ne_true

/-! ### Loops of changes -/

/-- A loop each of whose steps changes colors by `g`, changes them by what `g` adds up to. -/
theorem sweep_eq_mapCells {step : Nat → Buffer → Outcome Fault Buffer} {n : Nat}
    (g total : Nat → Nat → Color f → Color f) (start : ∀ i d, total 0 i d = d)
    (next : ∀ k < n, ∀ i d, g k i (total k i d) = total (k + 1) i d)
    (each : ∀ k < n, ∀ b' : Buffer, b'.size = b.size →
      step k b' = .finished (mapCells (g k) b')) :
    Outcome.sweep step 0 n b = .finished (mapCells (total n) b) := by
  refine Outcome.sweep_along (fun k => mapCells (total k) b) ?_ ?_
  · have nothing : total 0 = fun _ d => d := by
      funext i d
      exact start i d
    rw [nothing, mapCells_id]
  · intro k hk
    have after : (fun i d => g k i (total k i d)) = total (k + 1) := by
      funext i d
      exact next k hk i d
    rw [Nat.zero_add, each k hk _ (size_mapCells _ _), mapCells_mapCells, after]

/-- A loop that changes one place after the other changes a range. -/
theorem sweep_inPlace {step : Nat → Buffer → Outcome Fault Buffer} {start n : Nat}
    {g : Nat → Color f → Color f}
    (each : ∀ k < n, ∀ b' : Buffer, b'.size = b.size →
      step k b' = .finished (mapCells (inPlace (start + k) (g k)) b')) :
    Outcome.sweep step 0 n b = .finished (mapCells (inRange start n g) b) := by
  refine sweep_eq_mapCells (fun k => inPlace (start + k) (g k))
    (fun k => inRange start k g) ?_ ?_ each
  · intro i d
    exact inRange_zero start g i d
  · intro k hk i d
    exact inPlace_inRange start k g i d

end Raster.Buffer
