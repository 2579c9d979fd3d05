import Mathlib.Data.List.Perm.Basic
import Mathlib.Logic.Function.Iterate
import Raster.Proofs.Spans
/-!
# Spans in parts and in any order

Where a span is cut makes no difference to what is drawn. Distances along a span are signed
numbers that wrap around (`Location.index_advance_signed`), but modulo 2⁶⁴ they add up
(`Location.advance_advance`): the place `n` steps further along is where the rest of the span
starts. So a run of `n + m` places is a run of `n` followed, if it has not stopped, by a run of `m`
from there (`Operation.composes`). This takes nothing from the operation, the buffers or the
locations, and holds of runs that stop as well as of those that do not.

Nor does the order matter in which a fill visits its places, if they are all in the buffer: a
place may come several times and under several indices, but it is always the same color that is
drawn there, and all that counts is how often (`cell?_foldl_drawn`). A fill draws one list of
places (`fillPixels_eq_drawAll`), to draw such a list is a fold of changes that commute
(`drawAll_eq_foldl`), and so the list may be in any order (`drawAll_perm`). `spans_compose` has
both.
-/

namespace Raster

variable {f s : PixelFormat}

namespace Operation

open Buffer

/-! ### Runs in two parts -/

/-- A run over `n + m` places is a run over `n` places and then, if it has not stopped, one over
`m` places from where the first one ends. -/
structure Composes (op : Operation f s) (b src : Buffer) (start source : Location) (n m : Nat)
    (c : Color s) : Prop where
  fill : op.fillPixels b start (n + m) c =
    (op.fillPixels b start n c).andThen fun b => op.fillPixels b (start.advance n) m c
  copy : op.copyPixels b start src source (n + m) =
    (op.copyPixels b start src source n).andThen fun b =>
      op.copyPixels b (start.advance n) src (source.advance n) m
  copyWithin : op.copyPixelsWithin b start source (n + m) =
    (op.copyPixelsWithin b start source n).andThen fun b =>
      op.copyPixelsWithin b (start.advance n) (source.advance n) m

theorem composes (op : Operation f s) (b src : Buffer) (start source : Location) (n m : Nat)
    (c : Color s) : op.Composes b src start source n m c where
  fill := by
    simp only [fillPixels_eq_sweep, Location.advance_advance]
    exact Outcome.sweep_zero_add n m
  copy := by
    simp only [copyPixels, Location.advance_advance]
    exact Outcome.sweep_zero_add n m
  copyWithin := by
    simp only [copyPixelsWithin, Location.advance_advance]
    exact Outcome.sweep_zero_add n m

/-! ### Fills in any order -/

/-- Draw one color at each of the places, up to the first where it cannot be drawn. -/
def drawAll (op : Operation f s) (c : Color s) : List Location → Buffer → Outcome Fault Buffer
  | [], b => .finished b
  | l :: places, b => (op.put l c b).andThen (op.drawAll c places)

theorem sweep_put_eq_drawAll (op : Operation f s) (start : Location) (c : Color s)
    (first n : Nat) (b : Buffer) :
    Outcome.sweep (fun i b => op.put (start.advance i) c b) first n b =
      op.drawAll c ((List.range' first n).map start.advance) b := by
  induction n generalizing first b with
  | zero => rfl
  | succ n ih =>
      rw [Outcome.sweep_succ, List.range'_succ, List.map_cons, drawAll]
      congr 1
      funext b
      exact ih (first + 1) b

/-- A fill draws its color at the places of the span, in span order. -/
theorem fillPixels_eq_drawAll (op : Operation f s) (b : Buffer) (start : Location) (n : Nat)
    (c : Color s) : op.fillPixels b start n c = op.drawAll c (start.span n) b := by
  rw [fillPixels_eq_sweep, sweep_put_eq_drawAll, Location.span, List.range_eq_range']

/-- What is left when `c` is drawn at a place that is there. -/
def drawn (op : Operation f s) (c : Color s) (b : Buffer) (l : Location) : Buffer :=
  mapCells (inPlace (l.cell f) fun d => op.result d c) b

theorem put_eq_drawn (op : Operation f s) {l : Location} (c : Color s) {b : Buffer}
    (fits : l.Fits f b.size) : op.put l c b = .finished (op.drawn c b l) :=
  op.put_eq_mapCells c fits

@[simp] theorem size_drawn (op : Operation f s) (c : Color s) (b : Buffer) (l : Location) :
    (op.drawn c b l).size = b.size := size_mapCells _ b

/-- Two places are drawn in either order. If they are the same, the color is drawn there twice. -/
instance drawn_right_comm (op : Operation f s) (c : Color s) : RightCommutative (op.drawn c) where
  right_comm := by
    intro b l l'
    rw [drawn, drawn, drawn, drawn, mapCells_mapCells, mapCells_mapCells]
    congr 1
    funext i d
    by_cases here : i = l.cell f
    · by_cases here' : i = l'.cell f
      · rw [← here, ← here']
      · rw [inPlace_of_ne here']
    · rw [inPlace_of_ne here]

/-- Where all places are there, they are drawn one after the other to the end. -/
theorem drawAll_eq_foldl (op : Operation f s) (c : Color s) {places : List Location} {b : Buffer}
    (fits : ∀ l ∈ places, l.Fits f b.size) :
    op.drawAll c places b = .finished (places.foldl (op.drawn c) b) := by
  induction places generalizing b with
  | nil => rfl
  | cons l places ih =>
      rw [List.forall_mem_cons] at fits
      rw [drawAll, op.put_eq_drawn c fits.1, Outcome.finished_andThen, List.foldl_cons]
      refine ih ?_
      rw [size_drawn]
      exact fits.2

/-- Such places can be drawn in any order. -/
theorem drawAll_perm (op : Operation f s) (c : Color s) {places places' : List Location}
    {b : Buffer} (perm : places'.Perm places) (fits : ∀ l ∈ places, l.Fits f b.size) :
    op.drawAll c places' b = op.drawAll c places b := by
  rw [op.drawAll_eq_foldl c fits, op.drawAll_eq_foldl c fun l hl => fits l (perm.subset hl),
    perm.foldl_eq b]

/-- A color has been drawn in a place as often as the place has come up. -/
theorem cell?_foldl_drawn (op : Operation f s) (c : Color s) (places : List Location)
    (b : Buffer) (k : Nat) :
    cell? f (places.foldl (op.drawn c) b) k =
      (cell? f b k).map (op.result · c)^[(places.map (·.cell f)).count k] := by
  induction places generalizing b with
  | nil => exact Option.map_id'.symm
  | cons l places ih =>
      rw [List.foldl_cons, ih, drawn, cell?_mapCells, Option.map_map, List.map_cons]
      by_cases here : l.cell f = k
      · rw [here, inPlace_self, List.count_cons_self, Function.iterate_succ]
      · rw [inPlace_of_ne (Ne.symm here), List.count_cons_of_ne here]
        rfl

/-- What all the orders leave in which the places of a fill can be drawn. -/
structure FillsInAnyOrder (op : Operation f s) (b : Buffer) (start : Location) (n : Nat)
    (c : Color s) (b' : Buffer) : Prop where
  inOrder : op.fillPixels b start n c = .finished b'
  anyOrder : ∀ places : List Location, places.Perm (start.span n) →
    op.drawAll c places b = .finished b'
  /-- In every place the color was drawn as often as the place is one of the span. -/
  drawn : ∀ k, cell? f b' k =
    (cell? f b k).map (op.result · c)^[((start.span n).map (·.cell f)).count k]

theorem fillsInAnyOrder (op : Operation f s) {b : Buffer} {start : Location} {n : Nat}
    (c : Color s) (fits : ∀ l ∈ start.span n, l.Fits f b.size) :
    op.FillsInAnyOrder b start n c ((start.span n).foldl (op.drawn c) b) where
  inOrder := (op.fillPixels_eq_drawAll b start n c).trans (op.drawAll_eq_foldl c fits)
  anyOrder := fun _ perm => (op.drawAll_perm c perm fits).trans (op.drawAll_eq_foldl c fits)
  drawn := op.cell?_foldl_drawn c (start.span n) b

/-- Fills, copies from another buffer and copies inside one can be cut at any place, wherever their
locations are and whether they stop or not. And a fill all of whose places are in the buffer gets
to its end, with what is left if its places are drawn in any other order. -/
theorem spans_compose (op : Operation f s) (b src : Buffer) (start source : Location) (n m : Nat)
    (c : Color s) :
    op.Composes b src start source n m c ∧
    ((∀ l ∈ start.span n, l.Fits f b.size) → ∃ b', op.FillsInAnyOrder b start n c b') :=
  ⟨op.composes b src start source n m c, fun fits => ⟨_, op.fillsInAnyOrder c fits⟩⟩

/-- One pixel under two indices, since every step goes once around the address space. It is blended
three times, and it does not matter when the other index has its turn. -/
theorem spans_compose_around :
    let blend : Operation .rgb565 .rgb565 := .blend 128
    let start : Location := ⟨0, Int64.minValue⟩
    let around : Location := ⟨9223372036854775808, Int64.minValue⟩
    blend.fillPixels #[0, 0, 7] start 3 (.rgb565 31) = .finished #[27, 0, 7] ∧
    blend.drawAll (.rgb565 31) [around, start, start] #[0, 0, 7] = .finished #[27, 0, 7] := by
  have value : (blend 128 : Operation .rgb565 .rgb565).fillPixels #[0, 0, 7] ⟨0, Int64.minValue⟩ 3
      (.rgb565 31) = .finished #[27, 0, 7] := rfl
  intro blend start around
  have fits : ∀ l ∈ start.span 3, l.Fits .rgb565 (#[0, 0, 7] : Buffer).size := by decide
  have perm : [around, start, start].Perm (start.span 3) := by decide
  obtain ⟨b', fills⟩ := (spans_compose blend #[0, 0, 7] #[] start start 3 0 (.rgb565 31)).2 fits
  obtain rfl : b' = #[27, 0, 7] := Outcome.finished.inj (fills.inOrder.symm.trans value)
  exact ⟨value, fills.anyOrder _ perm⟩

end Operation

end Raster
