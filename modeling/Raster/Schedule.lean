import Raster.Outcome
/-!
# Schedules

Work on several tasks at once. Each task is a sequence of steps that it makes in order,
and at every moment one of the tasks makes its next step; which one is up to the pool that
the tasks are given to. A `Schedule` is the whole sequence of these turns, in which every
task has exactly as many turns as it has steps. Nothing else is asked of it: tasks may be
handed out in groups or one by one, to any number of workers, and in any order.

`Schedule.run` performs the steps as the turns come. `Merge` is how the work of several
workers comes together, each of them going through tasks of its own: `Schedule.ofWorkers`
says that this is always a schedule.
-/

namespace Raster

/-- Whose turn it is, from the first step of any of `tasks` tasks to the last, when each task
has `steps` steps. -/
structure Schedule (tasks steps : Nat) where
  /-- The tasks in the order in which they make a step. -/
  turns : List Nat
  /-- Every task makes all its steps, and there are no other tasks. -/
  count_turns : ∀ i, turns.count i = if i < tasks then steps else 0

/-- What tasks are given to: any number of them, of any number of steps, is scheduled. -/
def Pool : Type := (tasks steps : Nat) → Schedule tasks steps

namespace Schedule

variable {tasks steps : Nat}

/-- One task after the other. -/
def inOrder (tasks steps : Nat) : Schedule tasks steps where
  turns := (List.range tasks).flatMap (List.replicate steps)
  count_turns i := by
    induction tasks with
    | zero => simp
    | succ tasks ih =>
        rw [List.range_succ, List.flatMap_append, List.count_append, ih]
        simp only [List.flatMap_cons, List.flatMap_nil, List.append_nil, List.count_replicate,
          beq_iff_eq]
        split <;> split <;> split <;> omega

instance : Inhabited (Schedule tasks steps) := ⟨inOrder tasks steps⟩

instance : Inhabited Pool := ⟨fun tasks steps => inOrder tasks steps⟩

/-- A step more for the task whose turn it was. -/
def advance (done : Nat → Nat) (i : Nat) : Nat → Nat :=
  fun k => if k = i then done k + 1 else done k

variable {ε σ : Type}

/-- Perform the steps as the turns come. `done` is how many steps each task has made. -/
def runTurns (step : Nat → Nat → σ → Outcome ε σ) :
    (turns : List Nat) → (done : Nat → Nat) → σ → Outcome ε σ
  | [], _, s => .finished s
  | i :: turns, done, s => (step i (done i) s).andThen (runTurns step turns (advance done i))

def run (schedule : Schedule tasks steps) (step : Nat → Nat → σ → Outcome ε σ) (s : σ) :
    Outcome ε σ :=
  runTurns step schedule.turns (fun _ => 0) s

/-! ### Workers -/

/-- Sequences that run side by side come together in one: each keeps its own order, and
nothing is said about the order between them. -/
inductive Merge {α : Type} : List (List α) → List α → Prop
  /-- Nothing is left to do. -/
  | nil {sequences : List (List α)} (h : ∀ xs ∈ sequences, xs = []) : Merge sequences []
  /-- One of the sequences goes on. -/
  | cons {before after : List (List α)} {x : α} {xs merged : List α}
      (h : Merge (before ++ xs :: after) merged) :
      Merge (before ++ (x :: xs) :: after) (x :: merged)

/-- Coming together, nothing is lost or gained. -/
theorem Merge.perm {α : Type} {sequences : List (List α)} {merged : List α}
    (h : Merge sequences merged) : merged.Perm sequences.flatten := by
  induction h with
  | nil h => rw [List.flatten_eq_nil_iff.mpr h]
  | @cons before after x xs merged _ ih =>
      simp only [List.flatten_append, List.flatten_cons, List.cons_append] at ih ⊢
      exact (ih.cons x).trans List.perm_middle.symm

/-- Workers each go through a list of tasks, one after the other. If every task is on exactly
one list, then however the workers come to be interleaved, the turns are a schedule. -/
def ofWorkers (workers : List (List Nat)) (shared : workers.flatten.Perm (List.range tasks))
    (turns : List Nat)
    (merged : Merge (workers.map fun own => own.flatMap (List.replicate steps)) turns) :
    Schedule tasks steps where
  turns := turns
  count_turns i := by
    have all : turns.Perm ((List.range tasks).flatMap (List.replicate steps)) := by
      refine merged.perm.trans ?_
      have flat : (workers.map fun own => own.flatMap (List.replicate steps)).flatten =
          workers.flatten.flatMap (List.replicate steps) := by
        simp only [List.flatMap_def, List.map_flatten, List.flatten_flatten, List.map_map,
          Function.comp_def]
      rw [flat]
      exact shared.flatMap_right _
    rw [all.count_eq]
    exact (inOrder tasks steps).count_turns i

end Schedule

end Raster
