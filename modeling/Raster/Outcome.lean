/-!
# Outcomes of work that may stop halfway

Drawing changes a state pixel by pixel. When a pixel cannot be handled the work stops
there, and the state keeps everything done before. `Outcome ε σ` is what such work
leaves: the state it reached and, if it did not finish, the cause.

`sweep` performs numbered steps in increasing order and stops at the first one that
stops. Its laws are the ones every drawing loop is reasoned about with:

* `sweep_add` — a sweep splits at any step, and the second part runs only if the first
  finished. The second part may be numbered on its own (`sweep_zero_add`);
* `sweep_succ_last` — the last step can be split off, so a sweep is the shorter sweep
  followed by one step, or the shorter sweep alone if that has stopped;
* `sweep_eq_finished` — a sweep of steps that do nothing does nothing;
* `sweep_congr_along` — a sweep is known by what its steps do to the states it comes through;
* `sweep_keeps` and `sweep_invariant` — what every step keeps, whether it finishes or stops,
  the sweep keeps;
* `sweep_finishes` — if every step finishes from where the one before it leaves off, the
  sweep finishes, and what holds after each step holds at its end. If the states are known
  there is nothing more to say (`sweep_along`);
* `sweep_stops` — if one of the steps never finishes, the sweep stops, there or before.
-/

namespace Raster

/-- The state that some work reached, with the cause if it stopped before its end. -/
inductive Outcome (ε σ : Type)
  /-- The work was done to its end. -/
  | finished (state : σ)
  /-- The work stopped; `state` holds what had been done until then. -/
  | stopped (cause : ε) (state : σ)

namespace Outcome

variable {ε ε' σ τ : Type}

/-- The state that was reached, finished or not. -/
def state : Outcome ε σ → σ
  | finished s => s
  | stopped _ s => s

@[simp] theorem state_finished (s : σ) : (finished s : Outcome ε σ).state = s := rfl

@[simp] theorem state_stopped (e : ε) (s : σ) : (stopped e s).state = s := rfl

/-- The cause of a stop. -/
def cause? : Outcome ε σ → Option ε
  | finished _ => none
  | stopped e _ => some e

@[simp] theorem cause?_finished (s : σ) : (finished s : Outcome ε σ).cause? = none := rfl

@[simp] theorem cause?_stopped (e : ε) (s : σ) : (stopped e s).cause? = some e := rfl

/-- The state and the cause together are the whole outcome. -/
theorem ext {r r' : Outcome ε σ} (hs : r.state = r'.state) (hc : r.cause? = r'.cause?) :
    r = r' := by
  cases r <;> cases r' <;> simp_all

/-- The result alone: the state if the work was finished, otherwise only the cause. -/
def toExcept : Outcome ε σ → Except ε σ
  | finished s => .ok s
  | stopped e _ => .error e

/-- The same work seen through a larger state and a wider class of causes. -/
@[inline] def map (onCause : ε → ε') (onState : σ → τ) : Outcome ε σ → Outcome ε' τ
  | finished s => finished (onState s)
  | stopped e s => stopped (onCause e) (onState s)

@[simp] theorem state_map (g : ε → ε') (h : σ → τ) (r : Outcome ε σ) :
    (r.map g h).state = h r.state := by
  cases r <;> rfl

/-- Go on with `next` from the state reached, unless the work has stopped. -/
@[inline] def andThen (r : Outcome ε σ) (next : σ → Outcome ε σ) : Outcome ε σ :=
  match r with
  | finished s => next s
  | stopped e s => stopped e s

@[simp] theorem finished_andThen (s : σ) (next : σ → Outcome ε σ) :
    (finished s).andThen next = next s := rfl

@[simp] theorem stopped_andThen (e : ε) (s : σ) (next : σ → Outcome ε σ) :
    (stopped e s).andThen next = stopped e s := rfl

@[simp] theorem andThen_finished (r : Outcome ε σ) : r.andThen finished = r := by
  cases r <;> rfl

theorem andThen_assoc (r : Outcome ε σ) (f g : σ → Outcome ε σ) :
    (r.andThen f).andThen g = r.andThen fun s => (f s).andThen g := by
  cases r <;> rfl

/-! ### Sweeps -/

/-- Perform the steps `first, …, first + count - 1` in this order, up to the first one
that stops. -/
def sweep (step : Nat → σ → Outcome ε σ) (first : Nat) : (count : Nat) → σ → Outcome ε σ
  | 0, s => finished s
  | count + 1, s => (step first s).andThen fun s => sweep step (first + 1) count s

variable {step step' : Nat → σ → Outcome ε σ} {first count : Nat} {s : σ}

@[simp] theorem sweep_zero : sweep step first 0 s = finished s := rfl

theorem sweep_succ :
    sweep step first (count + 1) s =
      (step first s).andThen (sweep step (first + 1) count) := rfl

/-- A sweep splits into two, the second of which runs only if the first finished. -/
theorem sweep_add (m n : Nat) :
    sweep step first (m + n) s =
      (sweep step first m s).andThen (sweep step (first + m) n) := by
  induction m generalizing first s with
  | zero => simp
  | succ m ih =>
      rw [Nat.succ_add, sweep_succ, sweep_succ, andThen_assoc]
      have shift : first + 1 + m = first + (m + 1) := by omega
      cases step first s with
      | finished s => simp [ih, shift]
      | stopped e s => rfl

/-- The last step of a sweep can be split off. -/
theorem sweep_succ_last :
    sweep step first (count + 1) s =
      (sweep step first count s).andThen (step (first + count)) := by
  rw [sweep_add]
  have one : sweep step (first + count) 1 = step (first + count) := by
    funext s
    simp [sweep]
  rw [one]

/-- A sweep that has finished goes on with one more step. -/
theorem sweep_succ_of_none (done : (sweep step first count s).cause? = none) :
    sweep step first (count + 1) s = step (first + count) (sweep step first count s).state := by
  rw [sweep_succ_last]
  cases run : sweep step first count s with
  | finished s' => rfl
  | stopped e s' => simp [run] at done

/-- A sweep that has stopped does not. -/
theorem sweep_succ_of_some {e : ε} (stop : (sweep step first count s).cause? = some e) :
    sweep step first (count + 1) s = sweep step first count s := by
  rw [sweep_succ_last]
  cases run : sweep step first count s with
  | finished s' => simp [run] at stop
  | stopped e' s' => rfl

/-- To start later is to number the steps from there. -/
theorem sweep_shift (n : Nat) :
    sweep step (first + n) count s = sweep (fun i => step (n + i)) first count s := by
  induction count generalizing first s with
  | zero => rfl
  | succ count ih =>
      have next : first + n + 1 = first + 1 + n := Nat.add_right_comm first n 1
      rw [sweep_succ, sweep_succ, next, Nat.add_comm first n]
      congr 1
      funext s
      exact ih

/-- A sweep in two parts, each of which is numbered on its own. -/
theorem sweep_zero_add (m n : Nat) :
    sweep step 0 (m + n) s =
      (sweep step 0 m s).andThen (sweep (fun i => step (m + i)) 0 n) := by
  rw [sweep_add]
  congr 1
  funext s
  exact sweep_shift m

/-- Two sweeps agree when their steps do. -/
theorem sweep_congr
    (h : ∀ i s, first ≤ i → i < first + count → step i s = step' i s) :
    sweep step first count s = sweep step' first count s := by
  induction count generalizing first s with
  | zero => rfl
  | succ count ih =>
      rw [sweep_succ, sweep_succ, h first s (by omega) (by omega)]
      congr 1
      funext s
      exact ih fun i s hi hi' => h i s (by omega) (by omega)

/-- A sweep of steps that do nothing does nothing. -/
theorem sweep_eq_finished (h : ∀ i s, step i s = finished s) :
    sweep step first count s = finished s := by
  induction count generalizing first with
  | zero => rfl
  | succ count ih => rw [sweep_succ, h, finished_andThen, ih]

/-- Two sweeps agree when their steps do on the states that the first one comes through. -/
theorem sweep_congr_along
    (h : ∀ k < count, ∀ s', sweep step first k s = finished s' →
      step (first + k) s' = step' (first + k) s') :
    sweep step first count s = sweep step' first count s := by
  induction count with
  | zero => rfl
  | succ count ih =>
      have before := ih fun k hk => h k (Nat.lt_succ_of_lt hk)
      rw [sweep_succ_last, sweep_succ_last, ← before]
      cases run : sweep step first count s with
      | finished s' => exact h count (Nat.lt_succ_self count) s' run
      | stopped e s' => rfl

/-- What each of the steps keeps, whether it finishes or stops, the sweep keeps. -/
theorem sweep_keeps (keeps : σ → Prop)
    (h : ∀ i, first ≤ i → i < first + count → ∀ s, keeps s → keeps (step i s).state)
    (hs : keeps s) : keeps (sweep step first count s).state := by
  induction count generalizing first s with
  | zero => exact hs
  | succ count ih =>
      rw [sweep_succ]
      have stepped := h first (by omega) (by omega) s hs
      cases hstep : step first s with
      | finished s' =>
          rw [hstep] at stepped
          exact ih (fun i hi hi' => h i (by omega) (by omega)) stepped
      | stopped e s' => simpa [hstep] using stepped

/-- The same where every step there could be keeps it. -/
theorem sweep_invariant (keeps : σ → Prop) (h : ∀ i s, keeps s → keeps (step i s).state)
    (hs : keeps s) : keeps (sweep step first count s).state :=
  sweep_keeps keeps (fun i _ _ => h i) hs

/-- A property `P k` of the states after `k` steps, from which the next step finishes and
leads to the property after it, holds after the whole sweep, and the sweep finishes. -/
theorem sweep_finishes {P : Nat → σ → Prop} (start : P 0 s)
    (next : ∀ k < count, ∀ s, P k s → ∃ s', step (first + k) s = finished s' ∧ P (k + 1) s') :
    ∃ s', sweep step first count s = finished s' ∧ P count s' := by
  induction count with
  | zero => exact ⟨s, rfl, start⟩
  | succ count ih =>
      obtain ⟨s₁, run, reached⟩ := ih fun k hk => next k (Nat.lt_succ_of_lt hk)
      obtain ⟨s₂, last, done⟩ := next count (Nat.lt_succ_self _) s₁ reached
      refine ⟨s₂, ?_, done⟩
      rw [sweep_succ_last, run, finished_andThen, last]

/-- A sweep goes from state to state. -/
theorem sweep_along (path : Nat → σ) (start : s = path 0)
    (next : ∀ k < count, step (first + k) (path k) = finished (path (k + 1))) :
    sweep step first count s = finished (path count) := by
  have run : ∃ s', sweep step first count s = finished s' ∧ s' = path count := by
    refine sweep_finishes (P := fun k s => s = path k) start ?_
    rintro k hk _ rfl
    exact ⟨_, next k hk, rfl⟩
  obtain ⟨_, run, rfl⟩ := run
  exact run

/-- A sweep with a step that never finishes stops, and for one of the causes that its steps
stop for. -/
theorem sweep_stops {keeps : σ → Prop} {blamed : ε → Prop}
    (each : ∀ i s, keeps s → (∃ s', step i s = finished s' ∧ keeps s') ∨
      ∃ e s', step i s = stopped e s' ∧ blamed e)
    {i : Nat} (hi : first ≤ i ∧ i < first + count)
    (never : ∀ s, keeps s → ∀ s', step i s ≠ finished s') (hs : keeps s) :
    ∃ e s', sweep step first count s = stopped e s' ∧ blamed e := by
  induction count generalizing first s with
  | zero => omega
  | succ count ih =>
      rw [sweep_succ]
      rcases each first s hs with ⟨s', done, kept⟩ | ⟨e, s', stop, blame⟩
      · have later : first ≠ i := by
          rintro rfl
          exact never s hs s' done
        rw [done, finished_andThen]
        exact ih (by omega) kept
      · rw [stop, stopped_andThen]
        exact ⟨e, s', rfl, blame⟩

end Outcome

end Raster
