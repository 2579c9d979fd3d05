import Raster.Proofs.Addresses
import Raster.Proofs.Layers
/-!
# Requests that commute

Of two requests that are made one after the other, the first changes what the second works on.
It cannot change its answer, because what is checked are sizes and settings, and these stay. And
if the two draw into rectangles that share no pixel, the second changes what the first has left
alone. So the two commute (`Drawing.commute_of_answers`). The rectangles are apart in
coordinates only: in memory the rows of both may lie between each other, in either order.

A request that is refused commutes with anything, even with drawing at locations that stops
halfway (`Drawing.commute_of_refused`). `requests_commute` has both.
-/

namespace Raster.Drawing

variable {f s : PixelFormat} {fb : Framebuffer f} {first second : Drawing f}

/-- Which of the two requests is made first makes no difference, on whatever pools. -/
structure Commute (fb : Framebuffer f) (first second : Drawing f) : Prop where
  /-- The one ends the same before the other and after it. -/
  first_cause : ∀ pool later before, (first.outcome pool fb).cause? =
    (first.outcome later (second.outcome before fb).state).cause?
  /-- So does the other. -/
  second_cause : ∀ pool later before, (second.outcome pool fb).cause? =
    (second.outcome later (first.outcome before fb).state).cause?
  /-- They leave the same framebuffer. -/
  state : ∀ before later before' later',
    (second.outcome later (first.outcome before fb).state).state =
      (first.outcome later' (second.outcome before' fb).state).state

theorem Commute.symm (h : Commute fb first second) : Commute fb second first where
  first_cause := h.second_cause
  second_cause := h.first_cause
  state := fun before later before' later' => (h.state before' later' before later).symm

/-- The request draws into a rectangle and reads nothing from the framebuffer besides: it fills
or copies a span or a band. -/
inductive Into : Drawing f → Band → Prop
  | fillSpan {s : PixelFormat} (op : Operation f s) (x y n : UInt32) (c : Color s) :
      Into (.fillSpan op x y n c) (.ofSpan x y n)
  | copySpan {s : PixelFormat} (op : Operation f s) (x y : UInt32) (src : Framebuffer s)
      (sx sy n : UInt32) : Into (.copySpan op x y src sx sy n) (.ofSpan x y n)
  | fillRows {s : PixelFormat} (op : Operation f s) (band : Band) (c : Color s)
      (threading : Threading) : Into (.fillRows op band c threading) band
  | copyRows {s : PixelFormat} (op : Operation f s) (band : Band) (src : Framebuffer s)
      (sx sy : UInt32) (threading : Threading) :
      Into (.copyRows op band src sx sy threading) band

/-- Such a request answers with a layer on its rectangle. -/
theorem Into.answers {drawing : Drawing f} {band : Band} (into : drawing.Into band)
    (g : Geometry) : ∃ check layer, layer.band = band ∧ drawing.Answers g check layer := by
  cases into with
  | fillSpan op x y n c => exact ⟨_, _, rfl, answers_fillSpan op x y n c⟩
  | copySpan op x y src sx sy n => exact ⟨_, _, rfl, answers_copySpan op x y src sx sy n⟩
  | fillRows op band c threading => exact ⟨_, _, rfl, answers_fillRows op band c threading⟩
  | copyRows op band src sx sy threading =>
      exact ⟨_, _, rfl, answers_copyRows op band src sx sy threading⟩

/-! ### Requests that answer -/

variable {check check' : Except Error Unit} {layer layer' : Layer f}

/-- How a request ends depends on the geometry only. -/
theorem Answers.cause?_eq {fb' : Framebuffer f} (h : first.Answers fb.toGeometry check layer)
    (same : fb'.toGeometry = fb.toGeometry) (pool pool' : Pool) :
    (first.outcome pool fb).cause? = (first.outcome pool' fb').cause? := by
  rw [h pool fb rfl, h pool' fb' same]
  cases check with
  | error e => rfl
  | ok _ => rfl

/-- The layers that requests come to commute, and so do the requests. -/
theorem commute_of_answers (h : first.Answers fb.toGeometry check layer)
    (h' : second.Answers fb.toGeometry check' layer')
    (comm : ∀ x y d, layer'.paint x y (layer.paint x y d) = layer.paint x y (layer'.paint x y d)) :
    Commute fb first second where
  first_cause := fun pool later before =>
    h.cause?_eq (second.toGeometry_state_outcome before fb) pool later
  second_cause := fun pool later before =>
    h'.cause?_eq (first.toGeometry_state_outcome before fb) pool later
  state := by
    intro before later before' later'
    rw [h' later _ (first.toGeometry_state_outcome before fb), h before fb rfl,
      h later' _ (second.toGeometry_state_outcome before' fb), h' before' fb rfl]
    -- Only if both are granted there are two layers, and one goes on the other.
    cases check with
    | error e =>
        cases check' with
        | error e' => rfl
        | ok _ => rfl
    | ok _ =>
        cases check' with
        | error e' => rfl
        | ok _ =>
            show (fb.mapPixels layer.paint).mapPixels layer'.paint =
              (fb.mapPixels layer'.paint).mapPixels layer.paint
            rw [Framebuffer.mapPixels_mapPixels, Framebuffer.mapPixels_mapPixels]
            simp only [comm]

/-! ### Requests that are refused -/

/-- A pool has no part in what a request comes to. -/
theorem outcome_pool (pool pool' : Pool) (fb : Framebuffer f) (drawing : Drawing f) :
    drawing.outcome pool fb = drawing.outcome pool' fb := by
  cases drawing with
  | fillRows op band c threading =>
      rw [outcome, outcome, fb.fillRowsOn_eq, fb.fillRowsOn_eq]
  | copyRows op band src sx sy threading =>
      rw [outcome, outcome, fb.copyRowsOn_eq, fb.copyRowsOn_eq]
  | _ => rfl

/-- A request that answers and is not granted leaves the framebuffer as it is, and the next one
works on that. -/
theorem commute_of_refused {pool : Pool} (h : first.Answers fb.toGeometry check layer)
    (refused : ∀ fb', first.outcome pool fb ≠ .finished fb') (second : Drawing f) :
    Commute fb first second := by
  obtain ⟨e, rfl⟩ : ∃ e, check = .error e := by
    cases check with
    | error e => exact ⟨e, rfl⟩
    | ok _ => exact absurd (h pool fb rfl) (refused _)
  have same : ∀ (pool : Pool) (fb' : Framebuffer f), fb'.toGeometry = fb.toGeometry →
      (first.outcome pool fb').state = fb' := by
    intro pool fb' geometry
    rw [h pool fb' geometry]
    rfl
  refine ⟨?_, ?_, ?_⟩
  · intro pool later before
    exact h.cause?_eq (second.toGeometry_state_outcome before fb) pool later
  · intro pool later before
    rw [same before fb rfl, second.outcome_pool pool later]
  · intro before later before' later'
    rw [same before fb rfl, same later' _ (second.toGeometry_state_outcome before' fb),
      second.outcome_pool later before']

/-- Two requests, each of which fills or copies a span or a band of its own with an operation, a
color or a source and a setting of its own, commute if their rectangles share no pixel. If one
of them is refused, it commutes with every request there is. -/
theorem requests_commute (fb : Framebuffer f) (first second : Drawing f) (band : Band)
    (into : first.Into band) :
    (∀ other : Band, second.Into other → (∀ x y, ¬ (band.Contains x y ∧ other.Contains x y)) →
      Commute fb first second) ∧
    ∀ pool, (∀ fb', first.outcome pool fb ≠ .finished fb') →
      Commute fb first second ∧ Commute fb second first := by
  obtain ⟨check, layer, rfl, answers⟩ := into.answers fb.toGeometry
  constructor
  · rintro _ into' apart
    obtain ⟨check', layer', rfl, answers'⟩ := into'.answers fb.toGeometry
    exact commute_of_answers answers answers' (Layer.paint_comm apart)
  · intro pool refused
    have commute := commute_of_refused answers refused second
    exact ⟨commute, commute.symm⟩

/-- The left column is blended on two threads, and glyphs are drawn beside it. A span that leaves
the picture commutes with one that is drawn backward and runs out of the memory. -/
theorem requests_commute_column :
    let fb : Framebuffer .gray8 := ⟨⟨2, 2, .bottomUp⟩, #[1, 2, 3, 4], rfl, by decide⟩
    let src : Framebuffer .rgb565 := ⟨⟨1, 1, .topDown⟩, #[5, 6], rfl, by decide⟩
    let column : Drawing .gray8 := .fillRows (.blend 128) ⟨0, 0, 1, 2⟩ (.gray 200) ⟨true, some 2, 1⟩
    let glyph : Drawing .gray8 := .copySpan (.glyph (.gray 7) (.gray 8)) 1 0 src 0 0 1
    let wide : Drawing .gray8 := .fillSpan .copy 1 1 2 (.gray 9)
    let backward : Drawing .gray8 := .fillAt .copy (.reversed 1) 3 (.gray 9)
    Commute fb column glyph ∧ Commute fb wide backward ∧ Commute fb backward wide := by
  intro fb src column glyph wide backward
  have beside := (requests_commute fb column glyph _ (.fillRows ..)).1 _ (.copySpan ..)
  have refused := (requests_commute fb wide backward _ (.fillSpan ..)).2 default
  refine ⟨beside ?_, refused ?_⟩
  · rintro x y ⟨⟨⟨-, left⟩, -⟩, ⟨right, -⟩, -⟩
    exact Nat.not_lt.mpr right left
  · intro fb' done
    cases done

end Raster.Drawing
