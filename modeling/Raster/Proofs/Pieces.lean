import Raster.Proofs.Cells
/-!
# Pieces of a buffer as changes of colors

Work that is confined to a slice changes the colors of the places that the slice covers
(`onSlice_eq_mapCells`). When a buffer is cut into pieces of `w` places and every piece is
recolored, the color in place `k` goes through the change of place `k % w` of piece `k / w`:

* `eachPiece_eq_mapCells` — one piece after the other;
* `sharePieces_eq_mapCells` — by turns, whatever the schedule.

For the second, `soFar` says which changes have been made when each piece is as far as its
number of steps says. A turn leads from there to the next such state
(`onPiece_soFar`) because no two pieces share a place, and so a whole run does
(`runTurns_eq_mapCells`).
-/

namespace Raster.Buffer

variable {f : PixelFormat} {b : Buffer}

/-! ### Slices -/

theorem slice?_eq_ok {start stop : Nat} (order : start ≤ stop) (inside : stop ≤ b.size) :
    b.slice? start stop = .ok (b.extract start stop) := if_pos ⟨order, inside⟩

/-- The places of a slice that starts and ends between places. -/
theorem cell?_extract {first last i : Nat} (inside : last * f.bytesPerPixel ≤ b.size)
    (hi : first + i < last) :
    cell? f (b.extract (first * f.bytesPerPixel) (last * f.bytesPerPixel)) i =
      cell? f b (first + i) := by
  have fits := place_end_le f.bytesPerPixel hi
  rw [Nat.add_mul] at fits
  refine cell?_congr ?_
  intro k hk
  rw [Array.getElem?_extract, if_pos (by omega), Nat.add_mul, Nat.add_assoc]

/-- The places of a buffer of which `n` places from `first` on are overwritten. -/
theorem cell?_overwrite {part : Buffer} {first n : Nat} (size : part.size = n * f.bytesPerPixel)
    (inside : (first + n) * f.bytesPerPixel ≤ b.size) (i : Nat) :
    cell? f (b.overwrite (first * f.bytesPerPixel) part) i =
      if first ≤ i ∧ i < first + n then cell? f part (i - first) else cell? f b i := by
  rw [Nat.add_mul] at inside
  split
  · next within =>
      have low := Nat.mul_le_mul_right f.bytesPerPixel within.1
      have high := place_end_le f.bytesPerPixel within.2
      rw [Nat.add_mul] at high
      have place : (i - first) * f.bytesPerPixel = i * f.bytesPerPixel - first * f.bytesPerPixel :=
        Nat.sub_mul ..
      refine cell?_congr ?_
      intro k hk
      rw [getElem?_overwrite, if_pos (by omega), place,
        show i * f.bytesPerPixel + k - first * f.bytesPerPixel =
          i * f.bytesPerPixel - first * f.bytesPerPixel + k by omega,
        Array.getD_eq_getD_getElem?, Array.getElem?_eq_getElem (by omega), Option.getD_some]
  · next outside =>
      refine cell?_congr ?_
      intro k hk
      rw [getElem?_overwrite, if_neg]
      rcases Nat.lt_or_ge i first with before | notBefore
      · have ends := place_end_le f.bytesPerPixel before
        omega
      · have behind : first + n ≤ i := by omega
        have starts := Nat.mul_le_mul_right f.bytesPerPixel behind
        rw [Nat.add_mul] at starts
        omega

/-- To change the colors of a slice is to change those of the places it covers. -/
theorem onSlice_eq_mapCells {first n : Nat} {work : Buffer → Outcome Fault Buffer}
    {g : Nat → Color f → Color f} (inside : (first + n) * f.bytesPerPixel ≤ b.size)
    (each : ∀ part : Buffer, part.size = n * f.bytesPerPixel →
      work part = .finished (mapCells g part)) :
    b.onSlice (first * f.bytesPerPixel) ((first + n) * f.bytesPerPixel) work =
      .finished (mapCells (inRange first n g) b) := by
  have bytes : (first + n) * f.bytesPerPixel = first * f.bytesPerPixel + n * f.bytesPerPixel :=
    Nat.add_mul ..
  have size : (b.extract (first * f.bytesPerPixel) ((first + n) * f.bytesPerPixel)).size =
      n * f.bytesPerPixel := by
    rw [Array.size_extract]
    omega
  have changed : b.overwrite (first * f.bytesPerPixel)
      (mapCells g (b.extract (first * f.bytesPerPixel) ((first + n) * f.bytesPerPixel))) =
      mapCells (inRange first n g) b := by
    have size' := (size_mapCells g _).trans size
    refine ext_cells f ?_ ?_
    · intro i
      rw [cell?_overwrite size' inside, cell?_mapCells, cell?_mapCells]
      by_cases within : first ≤ i ∧ i < first + n
      · rw [if_pos within, cell?_extract inside (by omega), Nat.add_sub_cancel' within.1]
        congr 1
        funext d
        exact (if_pos within).symm
      · rw [if_neg within]
        have same : inRange first n g i = fun d => d := by
          funext d
          exact if_neg within
        rw [same, Option.map_id']
    · intro j hj
      -- All places up to the end of the slice are whole, so this byte lies behind it.
      have absent := cell?_eq_none_of_size (size_overwrite b _ _) hj
      have behind : first + n ≤ j / f.bytesPerPixel := by
        refine Decidable.byContradiction ?_
        intro before
        have before : j / f.bytesPerPixel + 1 ≤ first + n := by omega
        rw [← Option.not_isSome_iff_eq_none, isSome_cell?] at absent
        exact absent (Nat.le_trans (Nat.mul_le_mul_right _ before) inside)
      have beyond := Nat.le_trans (Nat.mul_le_mul_right f.bytesPerPixel behind)
        (Nat.div_mul_le_self j f.bytesPerPixel)
      rw [getElem?_mapCells_of_none absent, getElem?_overwrite, if_neg (by omega)]
  rw [onSlice, slice?_eq_ok (by omega) inside]
  simp only [each _ size, Outcome.map, changed]

/-! ### Pieces -/

/-- A change of the `i`-th piece of `w` places. -/
def inPiece (w i : Nat) (g : Nat → Color f → Color f) (k : Nat) (d : Color f) : Color f :=
  if k / w = i then g (k % w) d else d

/-- A piece is the range of its places. -/
theorem inRange_piece {w : Nat} (pos : 0 < w) (i : Nat) (g : Nat → Color f → Color f) :
    inRange (i * w) w g = inPiece w i g := by
  funext k d
  have whole := Nat.div_add_mod' k w
  have rest := Nat.mod_lt k pos
  simp only [inRange, inPiece]
  by_cases piece : k / w = i
  · subst piece
    rw [if_pos rfl, if_pos (by omega), show k - k / w * w = k % w by omega]
  · rw [if_neg piece, if_neg]
    rintro ⟨low, high⟩
    rw [← Nat.succ_mul] at high
    exact piece (Nat.div_eq_of_lt_le low high)

/-- Places before the end belong to one of the pieces. -/
theorem piece_lt {w m k : Nat} {c : Color f} (size : b.size = m * (w * f.bytesPerPixel))
    (there : cell? f b k = some c) : k / w < m := by
  have inside := (isSome_cell? f b k).mp (there ▸ rfl)
  rw [size, ← Nat.mul_assoc] at inside
  have before := Nat.le_of_mul_le_mul_right inside f.bytesPerPixel_pos
  rw [Nat.mul_comm] at before
  exact Nat.div_lt_of_lt_mul before

/-- To change the colors of a piece is to change those of its places. -/
theorem onPiece_eq_mapCells {w m i : Nat} {work : Buffer → Outcome Fault Buffer}
    {g : Nat → Color f → Color f} (pos : 0 < w) (size : b.size = m * (w * f.bytesPerPixel))
    (hi : i < m) (each : ∀ row : Buffer, row.size = w * f.bytesPerPixel →
      work row = .finished (mapCells g row)) :
    b.onSlice (i * (w * f.bytesPerPixel)) ((i + 1) * (w * f.bytesPerPixel)) work =
      .finished (mapCells (inPiece w i g) b) := by
  have inside : (i * w + w) * f.bytesPerPixel ≤ b.size := by
    rw [size, ← Nat.succ_mul, Nat.mul_assoc]
    exact Nat.mul_le_mul_right _ hi
  rw [← Nat.mul_assoc, ← Nat.mul_assoc, Nat.succ_mul, onSlice_eq_mapCells inside each,
    inRange_piece pos]

theorem size_div_piece {w m : Nat} (pos : 0 < w) (size : b.size = m * (w * f.bytesPerPixel)) :
    b.size / (w * f.bytesPerPixel) = m := by
  rw [size, Nat.mul_div_cancel _ (Nat.mul_pos pos f.bytesPerPixel_pos)]

/-- Pieces changed one after the other. -/
theorem eachPiece_eq_mapCells {w m : Nat} {work : Nat → Buffer → Outcome Fault Buffer}
    {g : Nat → Nat → Color f → Color f} (pos : 0 < w)
    (size : b.size = m * (w * f.bytesPerPixel))
    (each : ∀ i < m, ∀ row : Buffer, row.size = w * f.bytesPerPixel →
      work i row = .finished (mapCells (g i) row)) :
    b.eachPiece (w * f.bytesPerPixel) work =
      .finished (mapCells (fun k => g (k / w) (k % w)) b) := by
  have bytes := Nat.mul_pos pos f.bytesPerPixel_pos
  have run : Outcome.sweep (fun i b => b.onSlice (i * (w * f.bytesPerPixel))
      ((i + 1) * (w * f.bytesPerPixel)) (work i)) 0 m b =
      .finished (mapCells (fun k d => if k / w < m then g (k / w) (k % w) d else d) b) := by
    refine sweep_eq_mapCells (fun i => inPiece w i (g i))
      (fun n k d => if k / w < n then g (k / w) (k % w) d else d) ?_ ?_ ?_
    · intro k d
      exact if_neg (Nat.not_lt_zero _)
    · intro i hi k d
      simp only [inPiece]
      by_cases piece : k / w = i
      · subst piece
        rw [if_pos rfl, if_neg (by omega), if_pos (by omega)]
      · rw [if_neg piece]
        congr 1
        simp only [eq_iff_iff]
        omega
    · intro i hi b' size'
      exact onPiece_eq_mapCells pos (size'.trans size) hi (each i hi)
  rw [eachPiece, if_neg (by omega), size_div_piece pos size, run]
  congr 1
  refine mapCells_congr ?_
  intro k d there
  exact if_pos (piece_lt size there)

/-! ### Pieces by turns -/

/-- The changes made so far when the changes of the places of piece `i` from `start` on are
`g i 0, g i 1, …` and the first `done i` of them have been made. -/
def soFar (w start : Nat) (g : Nat → Nat → Color f → Color f) (done : Nat → Nat) (k : Nat) :
    Color f → Color f :=
  inRange start (done (k / w)) (g (k / w)) (k % w)

/-- A turn makes the next change of its piece, and no other piece has a part in it. -/
theorem onPiece_soFar {w m start i : Nat} {work : Buffer → Outcome Fault Buffer}
    {g : Nat → Nat → Color f → Color f} {done : Nat → Nat} (pos : 0 < w)
    (size : b.size = m * (w * f.bytesPerPixel)) (hi : i < m)
    (each : ∀ row : Buffer, row.size = w * f.bytesPerPixel →
      work row = .finished (mapCells (inPlace (start + done i) (g i (done i))) row)) :
    (mapCells (soFar w start g done) b).onSlice (i * (w * f.bytesPerPixel))
        ((i + 1) * (w * f.bytesPerPixel)) work =
      .finished (mapCells (soFar w start g (Schedule.advance done i)) b) := by
  rw [onPiece_eq_mapCells pos (by rw [size_mapCells, size]) hi each, mapCells_mapCells]
  congr 2
  funext k d
  simp only [inPiece, soFar, Schedule.advance]
  by_cases piece : k / w = i
  · subst piece
    rw [if_pos rfl, if_pos rfl, inPlace_inRange]
  · rw [if_neg piece, if_neg piece]

/-- Any sequence of turns makes of each piece as many changes as it has turns. -/
theorem runTurns_eq_mapCells {w m n start : Nat} {work : Nat → Nat → Buffer → Outcome Fault Buffer}
    {g : Nat → Nat → Color f → Color f} (pos : 0 < w)
    (size : b.size = m * (w * f.bytesPerPixel))
    (each : ∀ i < m, ∀ j < n, ∀ row : Buffer, row.size = w * f.bytesPerPixel →
      work i j row = .finished (mapCells (inPlace (start + j) (g i j)) row))
    (turns : List Nat) :
    ∀ done : Nat → Nat, (∀ i ∈ turns, i < m ∧ done i + turns.count i ≤ n) →
      Schedule.runTurns (fun i j b => b.onSlice (i * (w * f.bytesPerPixel))
          ((i + 1) * (w * f.bytesPerPixel)) (work i j)) turns done
          (mapCells (soFar w start g done) b) =
        .finished (mapCells (soFar w start g fun i => done i + turns.count i) b) := by
  induction turns with
  | nil =>
      intro done _
      rfl
  | cons i turns ih =>
      intro done bound
      -- The bound says that the piece exists and that this is one of its steps.
      obtain ⟨hi, room⟩ := bound i List.mem_cons_self
      rw [List.count_cons_self] at room
      have turn := onPiece_soFar pos size hi (each i hi (done i) (by omega))
      have counts : ∀ k, Schedule.advance done i k + turns.count k =
          done k + (i :: turns).count k := by
        intro k
        rw [Schedule.advance, List.count_cons]
        by_cases same : k = i
        · subst same
          simp only [if_true, beq_self_eq_true]
          omega
        · rw [if_neg same, if_neg (by simpa using Ne.symm same)]
          rfl
      rw [Schedule.runTurns, turn, Outcome.finished_andThen, ih]
      · simp only [counts]
      · intro k hk
        rw [counts k]
        exact bound k (List.mem_cons_of_mem _ hk)

/-- Pieces changed by turns. The pool does not show in the result. -/
theorem sharePieces_eq_mapCells {w m n start : Nat} {pool : Pool}
    {work : Nat → Nat → Buffer → Outcome Fault Buffer} {g : Nat → Nat → Color f → Color f}
    (pos : 0 < w) (size : b.size = m * (w * f.bytesPerPixel))
    (each : ∀ i < m, ∀ j < n, ∀ row : Buffer, row.size = w * f.bytesPerPixel →
      work i j row = .finished (mapCells (inPlace (start + j) (g i j)) row)) :
    b.sharePieces (w * f.bytesPerPixel) n pool work =
      .finished (mapCells (fun k => inRange start n (g (k / w)) (k % w)) b) := by
  have bytes := Nat.mul_pos pos f.bytesPerPixel_pos
  have counts := (pool m n).count_turns
  have bound : ∀ i ∈ (pool m n).turns, i < m ∧ 0 + (pool m n).turns.count i ≤ n := by
    intro i hi
    have turn := List.count_pos_iff.mpr hi
    have number := counts i
    split at number
    · omega
    · omega
  -- Before the first turn nothing has changed.
  have untouched : mapCells (soFar w start g fun _ => 0) b = b := by
    rw [← mapCells_id (f := f) b, mapCells_mapCells]
    refine mapCells_congr ?_
    intro k d _
    exact inRange_zero ..
  -- After the last one every piece has made all its steps, since the turns are a schedule.
  have run := runTurns_eq_mapCells pos size each (pool m n).turns (fun _ => 0) bound
  rw [untouched] at run
  rw [sharePieces, if_neg (by omega), size_div_piece pos size, Schedule.run, run]
  congr 1
  refine mapCells_congr ?_
  intro k d there
  rw [soFar, counts, if_pos (piece_lt size there), Nat.zero_add]

end Raster.Buffer
