import Mathlib.Data.List.Forall2
import Raster.Picture
import Raster.Proofs.Requests
import Raster.Session
/-!
# The order of rows cannot be seen

Two framebuffers are alike if they have the same size and the same pixels, in whatever orders
their rows lie (`Framebuffer.Alike`). What a request comes to is said in pixels, and so alike
framebuffers with alike sources get the same answer and stay alike: one lemma for each kind
of request, put together in `Step.outcome_alike`. `traces_alike` follows by induction on the
session: from worlds that are alike everything that can be seen is the same.
-/

namespace Raster

variable {f s : PixelFormat}

namespace Framebuffer

/-- Two framebuffers of the same size with the same pixels. -/
structure Alike (fb fb' : Framebuffer f) : Prop where
  width : fb.width = fb'.width
  height : fb.height = fb'.height
  pixels : ∀ x y, fb.pixel? x y = fb'.pixel? x y

namespace Alike

variable {fb fb' : Framebuffer f} {src src' : Framebuffer s}

/-- There are no pixels outside the pictures that could differ. -/
theorem of_inside (width : fb.width = fb'.width) (height : fb.height = fb'.height)
    (pixels : ∀ x y, x < fb.width.toNat → y < fb.height.toNat → fb.pixel? x y = fb'.pixel? x y) :
    fb.Alike fb' := by
  refine ⟨width, height, ?_⟩
  intro x y
  by_cases inside : x < fb.width.toNat ∧ y < fb.height.toNat
  · exact pixels x y inside.1 inside.2
  · rw [pixel?, pixel?, ← width, ← height, if_neg inside, if_neg inside]

theorem color (h : fb.Alike fb') (x y : Nat) : fb.color x y = fb'.color x y := by
  rw [Framebuffer.color, h.pixels, Framebuffer.color]

/-- The same change of pixels keeps framebuffers alike. -/
theorem mapPixels (h : fb.Alike fb') {g g' : Nat → Nat → Color f → Color f} (same : g = g') :
    (fb.mapPixels g).Alike (fb'.mapPixels g') where
  width := h.width
  height := h.height
  pixels := by
    intro x y
    rw [pixel?_mapPixels, pixel?_mapPixels, h.pixels, same]

theorem drawPixels (h : fb.Alike fb') (op : Operation f f) (sx sy x y n : Nat) :
    (fb.drawPixels op sx sy x y n).Alike (fb'.drawPixels op sx sy x y n) := by
  induction n with
  | zero => exact h
  | succ n ih =>
      rw [drawPixels_succ, drawPixels_succ]
      -- The source is a pixel of what has been drawn so far, where the two are still alike.
      refine ih.mapPixels ?_
      funext X Y d
      rw [ih.color]

/-! ### Checks look at sizes only -/

theorem checkSpan (h : fb.Alike fb') (x y n : UInt32) :
    fb.checkSpan x y n = fb'.checkSpan x y n := by
  simp only [Geometry.checkSpan, h.width, h.height]

theorem checkBand (h : fb.Alike fb') (role : BandRole) (band : Band) :
    fb.checkBand role band = fb'.checkBand role band := by
  simp only [Geometry.checkBand, h.width, h.height]

theorem checkCopySpan (h : fb.Alike fb') (hs : src.Alike src') (x y sx sy n : UInt32) :
    checkCopySpan fb.toGeometry src.toGeometry x y sx sy n =
      Framebuffer.checkCopySpan fb'.toGeometry src'.toGeometry x y sx sy n := by
  simp only [Framebuffer.checkCopySpan, h.checkSpan, hs.checkSpan]

theorem checkFill (h : fb.Alike fb') (band : Band) (threading : Threading) :
    checkFill fb.toGeometry band threading =
      Framebuffer.checkFill fb'.toGeometry band threading := by
  simp only [Framebuffer.checkFill, h.checkBand]

theorem checkCopy (h : fb.Alike fb') (hs : src.Alike src') (band : Band) (sx sy : UInt32)
    (threading : Threading) :
    checkCopy fb.toGeometry src.toGeometry band sx sy threading =
      Framebuffer.checkCopy fb'.toGeometry src'.toGeometry band sx sy threading := by
  simp only [Framebuffer.checkCopy, h.checkBand, hs.checkBand]

end Alike

/-! ### Requests -/

/-- Two outcomes that cannot be told apart: the same cause, if any, and alike framebuffers. -/
def SameAnswer (r r' : Outcome Failure (Framebuffer f)) : Prop :=
  r.cause? = r'.cause? ∧ r.state.Alike r'.state

variable {fb fb' : Framebuffer f} {src src' : Framebuffer s}

/-- The same check on alike framebuffers, and alike pictures behind it. -/
theorem Alike.answer (h : fb.Alike fb') {check check' : Except Error Unit}
    {drawn drawn' : Framebuffer f} (checks : check = check') (hd : drawn.Alike drawn') :
    SameAnswer (fb.answer check drawn) (fb'.answer check' drawn') := by
  subst checks
  cases check with
  | error e => exact ⟨rfl, h⟩
  | ok _ => exact ⟨rfl, hd⟩

theorem Alike.fillSpan (h : fb.Alike fb') (op : Operation f s) (x y n : UInt32) (c : Color s) :
    SameAnswer (fb.fillSpan op x y n c) (fb'.fillSpan op x y n c) := by
  rw [fillSpan_eq, fillSpan_eq]
  exact h.answer (h.checkSpan x y n) (h.mapPixels rfl)

theorem Alike.copySpan (h : fb.Alike fb') (hs : src.Alike src') (op : Operation f s)
    (x y sx sy n : UInt32) :
    SameAnswer (fb.copySpan op x y src sx sy n) (fb'.copySpan op x y src' sx sy n) := by
  rw [copySpan_eq, copySpan_eq]
  refine h.answer (h.checkCopySpan hs x y sx sy n) (h.mapPixels ?_)
  simp only [hs.color]

theorem Alike.copySpanWithin (h : fb.Alike fb') (op : Operation f f) (x y sx sy n : UInt32) :
    SameAnswer (fb.copySpanWithin op x y sx sy n) (fb'.copySpanWithin op x y sx sy n) := by
  rw [copySpanWithin_eq, copySpanWithin_eq]
  exact h.answer (h.checkCopySpan h x y sx sy n) (h.drawPixels op _ _ _ _ _)

theorem Alike.fillRowsOn (h : fb.Alike fb') (pool pool' : Pool) (op : Operation f s)
    (band : Band) (c : Color s) (threading : Threading) :
    SameAnswer (fb.fillRowsOn pool op band c threading)
      (fb'.fillRowsOn pool' op band c threading) := by
  rw [fillRowsOn_eq, fillRowsOn_eq]
  exact h.answer (h.checkFill band threading) (h.mapPixels rfl)

theorem Alike.copyRowsOn (h : fb.Alike fb') (hs : src.Alike src') (pool pool' : Pool)
    (op : Operation f s) (band : Band) (sx sy : UInt32) (threading : Threading) :
    SameAnswer (fb.copyRowsOn pool op band src sx sy threading)
      (fb'.copyRowsOn pool' op band src' sx sy threading) := by
  rw [copyRowsOn_eq, copyRowsOn_eq]
  refine h.answer (h.checkCopy hs band sx sy threading) (h.mapPixels ?_)
  simp only [hs.color]

/-! ### Pictures -/

theorem pixel?_eq_pixel (fb : Framebuffer f) {x y : Nat} (hx : x < fb.width.toNat)
    (hy : y < fb.height.toNat) : fb.pixel? x y = some (fb.pixel x y hx hy) :=
  (Option.some_get _).symm

/-- The pixels of the picture are those of the framebuffer, row by row. -/
theorem getElem?_picture (fb : Framebuffer f) (i : Nat) :
    fb.picture.pixels[i]? =
      (fb.pixel? (i % fb.width.toNat) (i / fb.width.toNat)).map Color.rgba := by
  rw [picture, Array.getElem?_ofFn]
  split
  · next inside =>
      have width := Nat.pos_of_mul_pos_right (Nat.lt_of_le_of_lt (Nat.zero_le _) inside)
      have there := fb.pixel?_eq_pixel (Nat.mod_lt i width) (Nat.div_lt_of_lt_mul inside)
      exact (congrArg (Option.map Color.rgba) there).symm
  · next outside =>
      have absent : fb.pixel? (i % fb.width.toNat) (i / fb.width.toNat) = none := by
        apply if_neg
        rintro ⟨column, row⟩
        rw [Nat.div_lt_iff_lt_mul (Nat.zero_lt_of_lt column), Nat.mul_comm] at row
        exact outside row
      rw [absent, Option.map_none]

/-- Alike framebuffers show the same picture. -/
theorem Alike.picture (h : fb.Alike fb') : fb.picture = fb'.picture := by
  have pixels : fb.picture.pixels = fb'.picture.pixels := by
    refine Array.ext_getElem? ?_
    intro i
    rw [getElem?_picture, getElem?_picture, h.width, h.pixels]
  have width : fb.picture.width = fb'.picture.width := h.width
  have height : fb.picture.height = fb'.picture.height := h.height
  cases hp : fb.picture
  cases hp' : fb'.picture
  simp_all

end Framebuffer

/-! ### Sessions -/

variable {Name : Type} {formats : Name → PixelFormat}

/-- Two worlds in which framebuffers of the same name are alike. -/
def World.Alike (w w' : World formats) : Prop := ∀ name, (w name).Alike (w' name)

/-- In alike worlds a request gets the same answer. -/
theorem Step.outcome_alike {w w' : World formats} (h : w.Alike w') (pool pool' : Pool)
    (step : Step formats) :
    Framebuffer.SameAnswer (step.outcome pool w) (step.outcome pool' w') := by
  cases step with
  | fillSpan target op x y n c => exact (h target).fillSpan op x y n c
  | copySpan target source op x y sx sy n =>
      exact (h target).copySpan (h source) op x y sx sy n
  | copySpanWithin target op x y sx sy n => exact (h target).copySpanWithin op x y sx sy n
  | fillRows target op band c threading =>
      exact (h target).fillRowsOn pool pool' op band c threading
  | copyRows target source op band sx sy threading =>
      exact (h target).copyRowsOn (h source) pool pool' op band sx sy threading

/-- Two worlds after a request, with its answers, that show no difference. -/
structure SeenAlike (seen seen' : Option Failure × World formats) : Prop where
  /-- The answer is the same, down to the text of an error. -/
  answer : seen.1 = seen'.1
  /-- All pixels are the same. -/
  worlds : seen.2.Alike seen'.2
  /-- So are all pictures. -/
  pictures : ∀ name, (seen.2 name).picture = (seen'.2 name).picture

theorem Step.run_alike [DecidableEq Name] {w w' : World formats} (h : w.Alike w')
    (pool pool' : Pool) (step : Step formats) :
    SeenAlike (step.run pool w) (step.run pool' w') := by
  obtain ⟨answer, drawn⟩ := step.outcome_alike h pool pool'
  -- Only the framebuffer that is drawn into is another one afterwards.
  have after : (step.run pool w).2.Alike (step.run pool' w').2 := by
    intro name
    by_cases drawnInto : name = step.target
    · subst drawnInto
      simp only [run, Function.update_self]
      exact drawn
    · simp only [run, Function.update_of_ne drawnInto]
      exact h name
  exact ⟨answer, after, fun name => (after name).picture⟩

/-- The order of rows cannot be seen. Two runs of a session from worlds in which framebuffers
of the same name have the same size and the same pixels, but each its own order of rows, give
the same answer to every request, and after every request the pixels and the pictures of all
framebuffers are the same again. The pools do not matter either. -/
theorem traces_alike [DecidableEq Name] (session : List (Step formats)) (w w' : World formats)
    (pools pools' : Nat → Pool) (h : w.Alike w') :
    List.Forall₂ SeenAlike (trace pools session w) (trace pools' session w') := by
  induction session generalizing w w' pools pools' with
  | nil => exact .nil
  | cons step session ih =>
      have seen := step.run_alike h (pools 0) (pools' 0)
      exact .cons seen (ih _ _ _ _ seen.worlds)

/-- One column of two pixels, stored in both orders, filled below and then blended upward. -/
theorem traces_alike_column :
    let w : World fun _ : Unit => .gray8 := fun _ => ⟨⟨1, 2, .topDown⟩, #[7, 9], rfl, by decide⟩
    let w' : World fun _ : Unit => .gray8 := fun _ => ⟨⟨1, 2, .bottomUp⟩, #[9, 7], rfl, by decide⟩
    let session : List (Step fun _ : Unit => .gray8) :=
      [.fillSpan () .copy 0 1 1 (.gray 3), .copySpanWithin () (.blend 128) 0 0 0 1 1]
    List.Forall₂ SeenAlike (trace (fun _ => default) session w)
      (trace (fun _ => default) session w') := by
  intro w w' session
  refine traces_alike session w w' _ _ fun name => ⟨rfl, rfl, fun x y => ?_⟩
  by_cases inside : x < 1 ∧ y < 2
  · obtain ⟨hx, hy⟩ := inside
    obtain rfl : x = 0 := by omega
    obtain rfl | rfl : y = 0 ∨ y = 1 := by omega
    · rfl
    · rfl
  · have outside : (w name).pixel? x y = none := if_neg inside
    have outside' : (w' name).pixel? x y = none := if_neg inside
    rw [outside, outside']

end Raster
