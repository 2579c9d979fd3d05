import Raster.Proofs.Snapshots
import Raster.Proofs.Table
/-!
# Drawing the same again

Most operations have nothing to add to what they have drawn: all but those that move the
destination a part of the way (`Operation.blendsDestination`). So it is with whole spans, but not
because every pixel comes out right the first time. The places of a span may coincide, and then
the sources that come to one place are all combined with it, in turn. When the span is drawn
again, the first of them meets what the last one has left.

What makes up for this is that a color that was drawn once is taken in for good
(`Operation.Absorbs`): once the same colors are drawn after it, it does not show whether it was
there before. For steps with this property (`Outcome.Absorbs`) a sweep can be repeated and leaves
what it left the first time (`Outcome.Absorbs.sweep_again`). That holds of a sweep that stops as
well, since where a step stops does not depend on the colors, so that the second one gets just as
far (`Outcome.Repeats`). Fills and copies are such sweeps (`Operation.drawing_again`).
-/

namespace Raster

variable {f s : PixelFormat}

/-! ### Sweeps that are repeated -/

namespace Outcome

variable {ε σ : Type} {step : Nat → σ → Outcome ε σ} {first n : Nat}

/-- A step that was made once adds nothing when it is made again, at once or after another one,
and no step changes how another one ends. -/
structure Absorbs (step : Nat → σ → Outcome ε σ) : Prop where
  again : ∀ i s, (step i (step i s).state).state = (step i s).state
  later : ∀ i j s, (step i (step j (step i s).state).state).state =
    (step i (step j s).state).state
  cause : ∀ i j s, (step i (step j s).state).cause? = (step i s).cause?

/-- A run of `n` steps from `s` and the same run from where that has led. -/
structure Repeats (run : Nat → σ → Outcome ε σ) (n : Nat) (s : σ) : Prop where
  /-- The second run ends as the first one did, with the same state. -/
  same : run n (run n s).state = run n s
  /-- Nor does it stop any earlier or later than the first one. -/
  stops : ∀ m, (run m (run n s).state).cause? = (run m s).cause?

namespace Absorbs

/-- A sweep does not change how a step ends. -/
theorem cause?_sweep (h : Absorbs step) (first n i : Nat) (s : σ) :
    (step i (sweep step first n s).state).cause? = (step i s).cause? := by
  refine sweep_invariant (fun s' => (step i s').cause? = (step i s).cause?) ?_ rfl
  intro j s' same
  rw [h.cause, same]

/-- So how a sweep ends is known by how its steps do. -/
theorem sweep_cause?_congr {s s' : σ} (h : Absorbs step)
    (same : ∀ i, (step i s').cause? = (step i s).cause?) (first n : Nat) :
    (sweep step first n s').cause? = (sweep step first n s).cause? := by
  induction n with
  | zero => rfl
  | succ n ih =>
      cases ended : (sweep step first n s).cause? with
      | none =>
          rw [sweep_succ_of_none ended, sweep_succ_of_none (ih.trans ended), h.cause?_sweep,
            h.cause?_sweep, same]
      | some e => rw [sweep_succ_of_some ended, sweep_succ_of_some (ih.trans ended), ih]

/-- A step after a sweep hides whether it was made before it. -/
theorem state_step_sweep (h : Absorbs step) (first n i : Nat) (s : σ) :
    (step i (sweep step first n (step i s).state).state).state =
      (step i (sweep step first n s).state).state := by
  induction n with
  | zero => exact h.again i s
  | succ n ih =>
      have same := h.sweep_cause?_congr (fun j => h.cause j i s) first n
      cases ended : (sweep step first n s).cause? with
      | none =>
          -- With the step in front of the last one on both sides, the sweep before it is shorter.
          rw [sweep_succ_of_none ended, sweep_succ_of_none (same.trans ended), ← h.later i, ih,
            h.later i]
      | some e => rw [sweep_succ_of_some ended, sweep_succ_of_some (same.trans ended), ih]

/-- A sweep that is repeated leaves what it left and stops where it stopped. -/
theorem sweep_again (h : Absorbs step) (first n : Nat) (s : σ) :
    sweep step first n (sweep step first n s).state = sweep step first n s := by
  induction n with
  | zero => rfl
  | succ n ih =>
      cases ended : (sweep step first n s).cause? with
      | some e => rw [sweep_succ_of_some ended, sweep_succ_of_some (by rw [ih, ended]), ih]
      | none =>
          have same := h.sweep_cause?_congr
            (fun i => h.cause?_sweep first (n + 1) i s) first n
          rw [sweep_succ_of_none ended] at same ⊢
          rw [sweep_succ_of_none (same.trans ended)]
          -- The last step was made before the second sweep and is made again after it.
          refine ext ?_ ?_
          · rw [h.state_step_sweep, ih]
          · rw [h.cause?_sweep, h.cause]

theorem repeats (h : Absorbs step) (n : Nat) (s : σ) : Repeats (sweep step first) n s where
  same := h.sweep_again first n s
  stops := h.sweep_cause?_congr (fun i => h.cause?_sweep first n i s) first

end Absorbs

end Outcome

/-! ### Colors that are taken in -/

namespace BitwiseOp

variable {α : Type} [OrOp α] [AndOp α] [Complement α]
  [Std.Associative fun x y : α => x ||| y] [Std.Commutative fun x y : α => x ||| y]
  [Std.Associative fun x y : α => x &&& y] [Std.Commutative fun x y : α => x &&& y]

theorem eval_right_comm (op : BitwiseOp) (d c c' : α) :
    op.eval (op.eval d c) c' = op.eval (op.eval d c') c := by
  cases op with
  | or => simp only [eval]; ac_rfl
  | and => simp only [eval]; ac_rfl
  | orNot => simp only [eval]; ac_rfl

variable [Std.IdempotentOp fun x y : α => x ||| y] [Std.IdempotentOp fun x y : α => x &&& y]

theorem eval_again (op : BitwiseOp) (d c : α) : op.eval (op.eval d c) c = op.eval d c := by
  cases op with
  | or => simp only [eval]; grind
  | and => simp only [eval]; grind
  | orNot => simp only [eval]; grind

end BitwiseOp

namespace Color

/-- To combine with the same color again changes nothing. -/
theorem bitwise_again (unit : Granularity) (op : BitwiseOp) (d c : Color f) :
    bitwise unit op (bitwise unit op d c) c = bitwise unit op d c := by
  refine toWord_inj.mp ?_
  rw [toWord_bitwise, toWord_bitwise]
  cases f with
  | gray8 => exact BitwiseOp.eval_again (α := UInt8) op _ _
  | rgb565 => exact BitwiseOp.eval_again (α := UInt16) op _ _
  | bgra8888 => exact BitwiseOp.eval_again (α := UInt32) op _ _

/-- The order in which colors are combined makes no difference. -/
theorem bitwise_right_comm (unit : Granularity) (op : BitwiseOp) (d c c' : Color f) :
    bitwise unit op (bitwise unit op d c) c' = bitwise unit op (bitwise unit op d c') c := by
  refine toWord_inj.mp ?_
  rw [toWord_bitwise, toWord_bitwise, toWord_bitwise, toWord_bitwise]
  cases f with
  | gray8 => exact BitwiseOp.eval_right_comm (α := UInt8) op _ _ _
  | rgb565 => exact BitwiseOp.eval_right_comm (α := UInt16) op _ _ _
  | bgra8888 => exact BitwiseOp.eval_right_comm (α := UInt32) op _ _ _

end Color

namespace Operation

open Buffer

/-- The destination is moved a part of the way, which is less when it is moved again. -/
def blendsDestination : Operation f s → Bool
  | .blend _ | .ink _ => true
  | _ => false

/-- A color that is drawn adds nothing to a destination that has it already, be it from just
before or from before another color. -/
structure Absorbs (op : Operation f s) : Prop where
  again : ∀ d c, op.result (op.result d c) c = op.result d c
  later : ∀ d c c', op.result (op.result (op.result d c) c') c = op.result (op.result d c') c

/-- A color that replaces the destination hides what was there, and one that is skipped leaves
it. -/
theorem absorbs_of_not_reads (op : Operation f s) (h : op.readsDestination = false) :
    op.Absorbs := by
  have replaces : ∀ {c}, op.skips c = false → ∀ d d', op.result d c = op.result d' c := by
    intro c drawn d d'
    rw [result_of_not_skips drawn, result_of_not_skips drawn]
    exact op.combine_eq_of_not_reads h d d' c
  constructor
  · intro d c
    cases skipped : op.skips c with
    | true => rw [result_of_skips skipped]
    | false => exact replaces skipped _ _
  · intro d c c'
    cases skipped : op.skips c with
    | true => rw [result_of_skips skipped d]
    | false => exact replaces skipped _ _

/-- Bits that are set or cleared stay so. -/
theorem absorbs_bitwise (unit : Granularity) (op : BitwiseOp) :
    (bitwise unit op : Operation f f).Absorbs where
  again := Color.bitwise_again unit op
  later := by
    intro d c c'
    show Color.bitwise unit op (Color.bitwise unit op (Color.bitwise unit op d c) c') c =
      Color.bitwise unit op (Color.bitwise unit op d c') c
    rw [Color.bitwise_right_comm unit op _ c' c, Color.bitwise_again,
      Color.bitwise_right_comm unit op d c c']

/-- All but the blends with the destination absorb what they draw. -/
theorem absorbs (op : Operation f s) (h : op.blendsDestination = false) : op.Absorbs := by
  cases op with
  | bitwise unit op => exact absorbs_bitwise unit op
  | blend weight => cases h
  | ink color => cases h
  | copy | invert unit | gradient low high | glyph background text | keyed key | keyedInvert key =>
      exact absorbs_of_not_reads _ rfl

/-! ### Pixels that are drawn again -/

/-- What it does to the colors of a buffer of `size` bytes to draw `c?` at `l`. A source or a place
that does not exist leaves all of them. -/
def change (op : Operation f s) (l : Location) (c? : Option (Color s)) (size : Nat) (i : Nat)
    (d : Color f) : Color f :=
  match c? with
  | some c => if l.Fits f size ∧ i = l.cell f then op.result d c else d
  | none => d

variable {op : Operation f s} {b src : Buffer} {l l' : Location} {c? c?' : Option (Color s)}

/-- In each place a change either leaves every color or draws one color onto it. -/
theorem change_cases (op : Operation f s) (l : Location) (c? : Option (Color s)) (size i : Nat) :
    (∀ d, op.change l c? size i d = d) ∨ ∃ c, ∀ d, op.change l c? size i d = op.result d c := by
  cases c? with
  | none => exact .inl fun _ => rfl
  | some c =>
      by_cases here : l.Fits f size ∧ i = l.cell f
      · exact .inr ⟨c, fun _ => if_pos here⟩
      · exact .inl fun _ => if_neg here

theorem Absorbs.change_again (h : op.Absorbs) (l : Location) (c? : Option (Color s))
    (size i : Nat) (d : Color f) :
    op.change l c? size i (op.change l c? size i d) = op.change l c? size i d := by
  rcases op.change_cases l c? size i with keeps | ⟨c, draws⟩
  · rw [keeps, keeps]
  · rw [draws, draws, h.again]

theorem Absorbs.change_later (h : op.Absorbs) (l l' : Location) (c? c?' : Option (Color s))
    (size i : Nat) (d : Color f) :
    op.change l c? size i (op.change l' c?' size i (op.change l c? size i d)) =
      op.change l c? size i (op.change l' c?' size i d) := by
  rcases op.change_cases l c? size i with keeps | ⟨c, draws⟩
  · rw [keeps d]
  · rcases op.change_cases l' c?' size i with keeps' | ⟨c', draws'⟩
    · rw [keeps', keeps', draws, draws, h.again]
    · rw [draws, draws, draws, draws', draws', h.later]

/-- To draw one pixel is this change, whether it can be drawn or not. -/
theorem state_put (op : Operation f s) (l : Location) (c : Color s) (b : Buffer) :
    (op.put l c b).state = mapCells (op.change l (some c) b.size) b := by
  by_cases fits : l.Fits f b.size
  · rw [op.put_eq_mapCells c fits, Outcome.state_finished]
    refine mapCells_congr ?_
    intro i d _
    simp only [change, fits, true_and, inPlace]
  · rw [op.state_put_of_not_fits c fits]
    refine (mapCells_id (f := f) b).symm.trans (mapCells_congr ?_)
    intro i d _
    simp only [change, fits, false_and, if_false]

theorem state_putFrom (op : Operation f s) (src : Buffer) (source l : Location) (b : Buffer) :
    (op.putFrom src source l b).state =
      mapCells (op.change l (pixel? s src source) b.size) b := by
  rw [putFrom]
  cases pixel? s src source with
  | none => exact (mapCells_id b).symm
  | some c => exact op.state_put l c b

/-- Whether a pixel can be drawn depends on the number of bytes only. -/
theorem cause?_put (op : Operation f s) (l : Location) (c : Color s) {b b' : Buffer}
    (size : b.size = b'.size) : (op.put l c b).cause? = (op.put l c b').cause? := by
  by_cases fits : l.Fits f b.size
  · rw [op.put_eq_mapCells c fits, op.put_eq_mapCells c (size ▸ fits)]
    rfl
  · have absent : pixel? f b l = none := if_neg fits
    have absent' : pixel? f b' l = none := if_neg (size ▸ fits)
    rw [put, put, absent, absent']
    split <;> rfl

theorem cause?_putFrom (op : Operation f s) (src : Buffer) (source l : Location) {b b' : Buffer}
    (size : b.size = b'.size) :
    (op.putFrom src source l b).cause? = (op.putFrom src source l b').cause? := by
  rw [putFrom, putFrom]
  cases pixel? s src source with
  | none => rfl
  | some c => exact op.cause?_put l c size

/-- Steps that draw pixels with an operation that absorbs its colors absorb each other. -/
theorem Absorbs.steps (h : op.Absorbs) {step : Nat → Buffer → Outcome Fault Buffer}
    {place : Nat → Location} {source? : Nat → Option (Color s)}
    (state : ∀ i b, (step i b).state = mapCells (op.change (place i) (source? i) b.size) b)
    (cause : ∀ i {b b' : Buffer}, b.size = b'.size → (step i b).cause? = (step i b').cause?) :
    Outcome.Absorbs step where
  again := by
    intro i b
    rw [state i (step i b).state, state i b, size_mapCells, mapCells_mapCells]
    refine mapCells_congr ?_
    intro k d _
    exact h.change_again _ _ _ k d
  later := by
    intro i j b
    simp only [state, size_mapCells, mapCells_mapCells]
    refine mapCells_congr ?_
    intro k d _
    exact h.change_later _ _ _ _ _ k d
  cause := by
    intro i j b
    refine cause i ?_
    rw [state, size_mapCells]

/-! ### Spans that are drawn again -/

theorem Absorbs.repeats_fillPixels (h : op.Absorbs) (b : Buffer) (start : Location) (n : Nat)
    (c : Color s) : Outcome.Repeats (fun n b => op.fillPixels b start n c) n b := by
  have steps : Outcome.Absorbs fun i b => op.put (start.advance i) c b :=
    h.steps (fun i b => op.state_put (start.advance i) c b)
      fun i _ _ size => op.cause?_put (start.advance i) c size
  simp only [fillPixels_eq_sweep]
  exact steps.repeats n b

theorem Absorbs.repeats_copyPixels (h : op.Absorbs) (b : Buffer) (start : Location)
    (src : Buffer) (source : Location) (n : Nat) :
    Outcome.Repeats (fun n b => op.copyPixels b start src source n) n b := by
  have steps : Outcome.Absorbs fun i b =>
      op.putFrom src (source.advance i) (start.advance i) b :=
    h.steps (fun i b => op.state_putFrom src (source.advance i) (start.advance i) b)
      fun i _ _ size => op.cause?_putFrom src (source.advance i) (start.advance i) size
  exact steps.repeats n b

/-- With every operation but the blends with the destination, a fill or a copy from another buffer
that is made once more leaves the buffer as the first one left it, wherever the places are and
however many of them coincide. If the first one stopped, so does the second, for the same cause,
and neither gets any further than the other. -/
theorem drawing_again (op : Operation f s) (h : op.blendsDestination = false) (b src : Buffer)
    (start source : Location) (n : Nat) (c : Color s) :
    Outcome.Repeats (fun n b => op.fillPixels b start n c) n b ∧
    Outcome.Repeats (fun n b => op.copyPixels b start src source n) n b :=
  ⟨(op.absorbs h).repeats_fillPixels b start n c,
    (op.absorbs h).repeats_copyPixels b start src source n⟩

/-- Four pixels are piled up in one place and change nothing when they are piled up again. A fill
that runs backward out of the buffer stops twice, and the second time without a trace. -/
theorem drawing_again_pile :
    let join : Operation .gray8 .gray8 := .bitwise .word .or
    let plain : Operation .gray8 .gray8 := .copy
    let pile (b : Buffer) := join.copyPixels b ⟨1, 0⟩ #[4, 8, 16, 32] (.forward 0) 4
    let fill (b : Buffer) := plain.fillPixels b (.reversed 1) 4 (.gray 9)
    (pile #[1, 2, 3] = .finished #[1, 62, 3] ∧ pile #[1, 62, 3] = .finished #[1, 62, 3]) ∧
    (fill #[1, 2, 3] = .stopped .destinationOutside #[9, 9, 3] ∧
      fill #[9, 9, 3] = .stopped .destinationOutside #[9, 9, 3]) := by
  have piled : (bitwise .word .or : Operation .gray8 .gray8).copyPixels #[1, 2, 3] ⟨1, 0⟩
      #[4, 8, 16, 32] (.forward 0) 4 = .finished #[1, 62, 3] := rfl
  have filled : (copy : Operation .gray8 .gray8).fillPixels #[1, 2, 3] (.reversed 1) 4 (.gray 9) =
      .stopped .destinationOutside #[9, 9, 3] := rfl
  have pileAgain := (drawing_again (bitwise .word .or) rfl #[1, 2, 3] #[4, 8, 16, 32] ⟨1, 0⟩
    (.forward 0) 4 (.gray 9)).2.same
  have fillAgain := (drawing_again copy rfl #[1, 2, 3] #[] (.reversed 1) (.forward 0) 4
    (.gray 9)).1.same
  simp only [piled, filled, Outcome.state_finished, Outcome.state_stopped] at pileAgain fillAgain
  exact ⟨⟨piled, pileAgain⟩, filled, fillAgain⟩

/-- A blend goes on from where it was. -/
example :
    let blend : Operation .gray8 .gray8 := .blend 128
    blend.fillPixels #[0] (.forward 0) 1 (.gray 200) = .finished #[100] ∧
      blend.fillPixels #[100] (.forward 0) 1 (.gray 200) = .finished #[150] :=
  ⟨rfl, rfl⟩

end Operation

end Raster
