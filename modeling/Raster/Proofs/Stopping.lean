import Mathlib.Data.Nat.Find
import Raster.Proofs.Spans
/-!
# Where drawing stops

Drawing a span is a run of numbered steps, and a step that cannot be done stops the run. Whether
it can be done shows before it is begun (`Operation.Blocked`): the source must be there, and so
must the place it is drawn on, unless the source has the key color, which is drawn nowhere. A
step that is blocked changes nothing, and any other is done to its end, so that no pixel is ever
written in part.

Runs of such steps (`Outcome.Blocks`) stop exactly if one of the steps is blocked, and then at
the first of them, with what the steps before it have done (`Outcome.Blocks.stopsAtFirst`). Fills
and copies are such runs, and copies inside one buffer as well, where the source of a step is what
the steps before it have left (`runs_stop_at_first`).
-/

namespace Raster

variable {f s : PixelFormat}

/-! ### Runs of steps -/

namespace Outcome

variable {ε σ : Type} {step : Nat → σ → Outcome ε σ} {blocked : Nat → σ → Prop} {n : Nat} {s : σ}

/-- A step that is blocked stops and changes nothing. Any other finishes. -/
structure Blocks (step : Nat → σ → Outcome ε σ) (blocked : Nat → σ → Prop) : Prop where
  stuck : ∀ {i s}, blocked i s → ∃ e, step i s = stopped e s
  free : ∀ {i s}, ¬ blocked i s → ∃ s', step i s = finished s'

/-- How `n` steps end, of which the first `k` come to `run k`. -/
structure StopsAtFirst (run : Nat → Outcome ε σ) (blocked : Nat → Prop) (n : Nat) : Prop where
  /-- They stop exactly if one of them is blocked. -/
  stops_iff : (∃ e s', run n = stopped e s') ↔ ∃ i < n, blocked i
  /-- Then it is at the first of these, and what is left is what the steps before it come to. -/
  first : ∀ i < n, blocked i → (∀ j < i, ¬ blocked j) →
    ∃ s', run i = finished s' ∧ ∃ e, run n = stopped e s'

theorem StopsAtFirst.finishes {run : Nat → Outcome ε σ} {blocked : Nat → Prop}
    (h : StopsAtFirst run blocked n) (free : ∀ i < n, ¬ blocked i) :
    ∃ s', run n = finished s' := by
  cases result : run n with
  | finished s' => exact ⟨s', rfl⟩
  | stopped e s' =>
      obtain ⟨i, hi, stuck⟩ := h.stops_iff.mp ⟨e, s', result⟩
      exact absurd stuck (free i hi)

/-- Steps of which none is blocked when its turn comes are all done. -/
theorem Blocks.finishes (h : Blocks step blocked)
    (free : ∀ i < n, ¬ blocked i (sweep step 0 i s).state) :
    ∃ s', sweep step 0 n s = finished s' := by
  induction n with
  | zero => exact ⟨s, rfl⟩
  | succ n ih =>
      obtain ⟨s₁, run⟩ := ih fun i hi => free i (Nat.lt_succ_of_lt hi)
      have last := free n (Nat.lt_succ_self n)
      rw [run, state_finished] at last
      obtain ⟨s₂, done⟩ := h.free last
      refine ⟨s₂, ?_⟩
      rw [sweep_succ_last, run, finished_andThen, Nat.zero_add, done]

/-- The first step that is blocked ends the run. -/
theorem Blocks.stops (h : Blocks step blocked) {i : Nat} (hi : i < n)
    (stuck : blocked i (sweep step 0 i s).state)
    (before : ∀ j < i, ¬ blocked j (sweep step 0 j s).state) :
    ∃ s', sweep step 0 i s = finished s' ∧ ∃ e, sweep step 0 n s = stopped e s' := by
  obtain ⟨s', run⟩ := h.finishes before
  rw [run, state_finished] at stuck
  obtain ⟨e, stop⟩ := h.stuck stuck
  obtain ⟨m, rfl⟩ := Nat.exists_eq_add_of_lt hi
  refine ⟨s', run, e, ?_⟩
  rw [Nat.add_assoc, sweep_add, run, finished_andThen, Nat.zero_add, sweep_succ, stop,
    stopped_andThen]

/-- A run of such steps stops at the first that is blocked when its turn comes. -/
theorem Blocks.stopsAtFirst (h : Blocks step blocked) (s : σ) (n : Nat) :
    StopsAtFirst (fun k => sweep step 0 k s) (fun i => blocked i (sweep step 0 i s).state) n where
  stops_iff := by
    classical
    constructor
    · rintro ⟨e, s', stop⟩
      refine Classical.byContradiction ?_
      intro none
      obtain ⟨s'', done⟩ := h.finishes fun i hi stuck => none ⟨i, hi, stuck⟩
      cases stop.symm.trans done
    · intro some
      obtain ⟨hi, stuck⟩ := Nat.find_spec some
      obtain ⟨s', -, e, stop⟩ := h.stops hi stuck fun j hj also =>
        Nat.find_min some hj ⟨Nat.lt_trans hj hi, also⟩
      exact ⟨e, s', stop⟩
  first := fun _ hi stuck before => h.stops hi stuck before

end Outcome

/-! ### Steps of drawing -/

namespace Operation

open Buffer

/-- The color that is drawn nowhere, if the operation has one. -/
def key? : Operation f s → Option (Color s)
  | .keyed key => some key
  | .keyedInvert key => some key
  | _ => none

/-- It takes a place to draw the color, which has to be any but the key. -/
def Accesses (op : Operation f s) (c : Color s) : Prop := op.key? ≠ some c

/-- What is skipped is the key. -/
theorem skips_iff (op : Operation f s) (c : Color s) : op.skips c = true ↔ op.key? = some c := by
  cases op with
  | keyed key => rw [skips, beq_iff_eq, key?, Option.some.injEq, eq_comm]
  | keyedInvert key => rw [skips, beq_iff_eq, key?, Option.some.injEq, eq_comm]
  | _ => simp [skips, key?]

theorem accesses_iff (op : Operation f s) (c : Color s) : op.Accesses c ↔ op.skips c = false := by
  rw [Accesses, ne_eq, ← skips_iff, Bool.not_eq_true]

/-- The pixel of `src` at `source` cannot be drawn at `l` in a buffer of `size` bytes: its own bytes
are not all there, or those that it takes to draw its color are not. -/
def Blocked (op : Operation f s) (src : Buffer) (source l : Location) (size : Nat) : Prop :=
  ¬ source.Fits s src.size ∨
    ∃ c, pixel? s src source = some c ∧ op.Accesses c ∧ ¬ l.Fits f size

variable {op : Operation f s} {l source : Location} {c : Color s} {b src : Buffer}

/-- A color that takes a place is not drawn where there is none. -/
theorem put_of_accesses (accesses : op.Accesses c) (outside : ¬ l.Fits f b.size) :
    op.put l c b = .stopped .destinationOutside b := by
  have none : pixel? f b l = none := if_neg outside
  rw [put, (op.accesses_iff c).mp accesses, none]
  rfl

/-- In all other cases it is drawn. -/
theorem put_finishes (place : ¬ (op.Accesses c ∧ ¬ l.Fits f b.size)) :
    ∃ b', op.put l c b = .finished b' := by
  by_cases fits : l.Fits f b.size
  · exact ⟨_, op.put_eq_mapCells c fits⟩
  · have skipped : op.skips c = true := by
      rw [← Bool.not_eq_false, ← accesses_iff]
      exact fun accesses => place ⟨accesses, fits⟩
    exact ⟨b, put_of_skips skipped l b⟩

/-- A source that is blocked is not drawn. -/
theorem putFrom_of_blocked (blocked : op.Blocked src source l b.size) :
    ∃ e, op.putFrom src source l b = .stopped e b := by
  rcases blocked with missing | ⟨c, there, accesses, outside⟩
  · have none : pixel? s src source = none := if_neg missing
    exact ⟨.sourceOutside, by rw [putFrom, none]⟩
  · refine ⟨.destinationOutside, ?_⟩
    rw [putFrom, there]
    exact put_of_accesses accesses outside

/-- Any other is. -/
theorem putFrom_finishes (free : ¬ op.Blocked src source l b.size) :
    ∃ b', op.putFrom src source l b = .finished b' := by
  rw [Blocked, not_or, Classical.not_not] at free
  obtain ⟨fits, open'⟩ := free
  obtain ⟨c, there⟩ := Option.isSome_iff_exists.mp (isSome_pixel?.mpr fits)
  rw [putFrom, there]
  exact put_finishes fun blocked => open' ⟨c, there, blocked⟩

/-- The key is never blocked, wherever it is drawn. -/
theorem not_blocked_of_key {size : Nat} (fits : source.Fits s src.size)
    (key : ¬ l.Fits f size → ∃ k, op.key? = some k ∧ pixel? s src source = some k) :
    ¬ op.Blocked src source l size := by
  rintro (missing | ⟨c, there, accesses, outside⟩)
  · exact missing fits
  · obtain ⟨k, isKey, same⟩ := key outside
    obtain rfl : c = k := Option.some.inj (there.symm.trans same)
    exact accesses isKey

/-! ### Fills and copies -/

variable (op b src)

theorem fillPixels_stopsAtFirst (start : Location) (n : Nat) (c : Color s) :
    Outcome.StopsAtFirst (fun k => op.fillPixels b start k c)
      (fun i => op.Accesses c ∧ ¬ (start.advance i).Fits f b.size) n := by
  have steps : Outcome.Blocks (fun i b => op.put (start.advance i) c b)
      fun i b => op.Accesses c ∧ ¬ (start.advance i).Fits f b.size :=
    ⟨fun ⟨accesses, outside⟩ => ⟨_, put_of_accesses accesses outside⟩, put_finishes⟩
  have run := steps.stopsAtFirst b n
  simpa only [← fillPixels_eq_sweep, size_state_fillPixels] using run

theorem copyPixels_stopsAtFirst (start source : Location) (n : Nat) :
    Outcome.StopsAtFirst (op.copyPixels b start src source)
      (fun i => op.Blocked src (source.advance i) (start.advance i) b.size) n := by
  have steps : Outcome.Blocks (fun i b => op.putFrom src (source.advance i) (start.advance i) b)
      fun i b => op.Blocked src (source.advance i) (start.advance i) b.size :=
    ⟨putFrom_of_blocked, putFrom_finishes⟩
  have run : Outcome.StopsAtFirst (op.copyPixels b start src source) (fun i =>
      op.Blocked src (source.advance i) (start.advance i)
        (op.copyPixels b start src source i).state.size) n := steps.stopsAtFirst b n
  simpa only [size_state_copyPixels] using run

theorem copyPixelsWithin_stopsAtFirst (start source : Location) (n : Nat) :
    Outcome.StopsAtFirst (op.copyPixelsWithin b start source)
      (fun i => op.Blocked (op.copyPixelsWithin b start source i).state (source.advance i)
        (start.advance i) b.size) n := by
  have steps : Outcome.Blocks (fun i b => op.putFrom b (source.advance i) (start.advance i) b)
      fun i b => op.Blocked b (source.advance i) (start.advance i) b.size :=
    ⟨putFrom_of_blocked, putFrom_finishes⟩
  have run : Outcome.StopsAtFirst (op.copyPixelsWithin b start source) (fun i =>
      op.Blocked (op.copyPixelsWithin b start source i).state (source.advance i)
        (start.advance i) (op.copyPixelsWithin b start source i).state.size) n :=
    steps.stopsAtFirst b n
  simpa only [size_state_copyPixelsWithin] using run

/-- The key gets past places that are not in the buffer: a run gets to its end if that is all that
is to be drawn there. -/
structure PassesOver (op : Operation f s) (b src : Buffer) (start source : Location) (n : Nat)
    (key : Color s) : Prop where
  copy : (∀ i < n, (source.advance i).Fits s src.size) →
    (∀ i < n, ¬ (start.advance i).Fits f b.size → pixel? s src (source.advance i) = some key) →
    ∃ b', op.copyPixels b start src source n = .finished b'
  copyWithin : (∀ i < n, (source.advance i).Fits s b.size) →
    (∀ i < n, ¬ (start.advance i).Fits f b.size →
      pixel? s (op.copyPixelsWithin b start source i).state (source.advance i) = some key) →
    ∃ b', op.copyPixelsWithin b start source n = .finished b'
  fill : ∃ b', op.fillPixels b start n key = .finished b'

theorem passesOver {key : Color s} (isKey : op.key? = some key) (start source : Location)
    (n : Nat) : op.PassesOver b src start source n key where
  copy := by
    intro fits only
    refine (op.copyPixels_stopsAtFirst b src start source n).finishes ?_
    intro i hi
    exact not_blocked_of_key (fits i hi) fun outside => ⟨key, isKey, only i hi outside⟩
  copyWithin := by
    intro fits only
    refine (op.copyPixelsWithin_stopsAtFirst b start source n).finishes ?_
    intro i hi
    refine not_blocked_of_key ?_ fun outside => ⟨key, isKey, only i hi outside⟩
    rw [size_state_copyPixelsWithin]
    exact fits i hi
  fill := by
    refine (op.fillPixels_stopsAtFirst b start n key).finishes ?_
    rintro i - ⟨accesses, -⟩
    exact accesses isKey

/-- Copies, fills and copies inside one buffer stop exactly if there is a step at which a source is
not in its buffer, or a color other than the key meets a place that is not in the buffer, whether
the place begins beyond the end, ends beyond it or wraps around. They stop at the first such step
and leave what the same run of as many steps as came before it leaves. So the key passes over
places that do not exist. -/
theorem runs_stop_at_first (op : Operation f s) (b src : Buffer) (start source : Location)
    (n : Nat) (c : Color s) :
    Outcome.StopsAtFirst (op.copyPixels b start src source)
      (fun i => op.Blocked src (source.advance i) (start.advance i) b.size) n ∧
    Outcome.StopsAtFirst (fun k => op.fillPixels b start k c)
      (fun i => op.Accesses c ∧ ¬ (start.advance i).Fits f b.size) n ∧
    Outcome.StopsAtFirst (op.copyPixelsWithin b start source)
      (fun i => op.Blocked (op.copyPixelsWithin b start source i).state (source.advance i)
        (start.advance i) b.size) n ∧
    ∀ key, op.key? = some key → op.PassesOver b src start source n key :=
  ⟨op.copyPixels_stopsAtFirst b src start source n, op.fillPixels_stopsAtFirst b start n c,
    op.copyPixelsWithin_stopsAtFirst b start source n,
    fun _ isKey => op.passesOver b src isKey start source n⟩

/-- Two pixels and the first half of a third one. The third is not drawn, not even that half of it,
but if it has the key color nothing stops. -/
theorem runs_stop_at_first_half :
    let b : Buffer := #[1, 2, 3, 4, 5]
    let src : Buffer := #[9, 8, 7, 6, 5, 4]
    let plain : Operation .rgb565 .rgb565 := .copy
    let keyed : Operation .rgb565 .rgb565 := .keyed (.rgb565 0x0405)
    let first : Location := .forward 0
    (∃ b', plain.copyPixels b first src first 2 = .finished b' ∧
      ∃ e, plain.copyPixels b first src first 3 = .stopped e b') ∧
    ∃ b', keyed.copyPixels b first src first 3 = .finished b' := by
  intro b src plain keyed first
  have stops := (runs_stop_at_first plain b src first first 3 (.rgb565 0)).1
  have passes := (runs_stop_at_first keyed b src first first 3 (.rgb565 0)).2.2.2 _ rfl
  have fitsSrc : ∀ i < 3, (first.advance i).Fits .rgb565 src.size := by decide
  have fits : ∀ i < 2, (first.advance i).Fits .rgb565 b.size := by decide
  refine ⟨stops.first 2 (by decide) ?_ ?_, passes.copy fitsSrc (by decide)⟩
  · exact .inr ⟨.rgb565 0x0405, by decide, nofun, by decide⟩
  · intro i hi
    exact not_blocked_of_key (fitsSrc i (Nat.lt_succ_of_lt hi)) fun outside =>
      absurd (fits i hi) outside

end Operation

end Raster
