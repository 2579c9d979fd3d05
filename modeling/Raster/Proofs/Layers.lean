import Mathlib.Data.List.Forall2
import Raster.History
import Raster.Proofs.Requests
/-!
# Layers

A request to draw into a rectangle does two things. It asks whether it can be granted, which
depends on sizes and settings only, and then it changes the pixels of the rectangle, each by
where it is and what is in it. The change is a `Layer`; `Drawing.Answers` says that a request
comes to such a check and such a layer, on whatever pool.

From there on requests are reasoned about in layers. What becomes of a pixel under many of them
is what those layers make of it that contain it (`Layer.paintAll_eq`), and requests that are
granted come to the layers they add (`Drawing.inTurn_eq_mapPixels`).
-/

namespace Raster

variable {f s : PixelFormat} {g : Geometry}

/-- A change of the pixels of a band, each by its coordinates in the picture. -/
structure Layer (f : PixelFormat) where
  band : Band
  change : Nat → Nat → Color f → Color f

namespace Layer

/-- What becomes of a pixel under a layer. -/
def paint (layer : Layer f) (x y : Nat) (d : Color f) : Color f :=
  if layer.band.Contains x y then layer.change x y d else d

/-- A color drawn onto a band. -/
def fill (op : Operation f s) (band : Band) (c : Color s) : Layer f where
  band := band
  change := fun _ _ d => op.result d c

/-- The pixels of a picture from column `sx` of row `sy` on, drawn onto a band. -/
def copy (op : Operation f s) (band : Band) (src : Framebuffer s) (sx sy : Nat) : Layer f where
  band := band
  change := fun x y d =>
    op.result d (src.color (sx + (x - band.x.toNat)) (sy + (y - band.y.toNat)))

variable {layer layer' : Layer f} {x y : Nat}

theorem paint_of_contains (h : layer.band.Contains x y) (d : Color f) :
    layer.paint x y d = layer.change x y d := if_pos h

theorem paint_of_not_contains (h : ¬ layer.band.Contains x y) (d : Color f) :
    layer.paint x y d = d := if_neg h

theorem paint_fill (op : Operation f s) (band : Band) (c : Color s) :
    (fill op band c).paint = band.inside fun _ _ d => op.result d c := rfl

theorem paint_copy (op : Operation f s) (band : Band) (src : Framebuffer s) (sx sy : Nat) :
    (copy op band src sx sy).paint =
      band.inside fun dx dy d => op.result d (src.color (sx + dx) (sy + dy)) := rfl

/-- A span has one row, and all its sources are in one row, too. -/
theorem change_copy_ofSpan (op : Operation f s) (src : Framebuffer s) (x y n : UInt32)
    (sx sy X : Nat) (d : Color f) :
    (copy op (.ofSpan x y n) src sx sy).change X y.toNat d =
      op.result d (src.color (sx + (X - x.toNat)) sy) := by
  simp only [copy, Band.ofSpan, Nat.sub_self, Nat.add_zero]

/-- Two layers that share no pixel may be painted in either order. -/
theorem paint_comm (apart : ∀ x y, ¬ (layer.band.Contains x y ∧ layer'.band.Contains x y))
    (x y : Nat) (d : Color f) :
    layer'.paint x y (layer.paint x y d) = layer.paint x y (layer'.paint x y d) := by
  by_cases within : layer.band.Contains x y
  · have beside : ¬ layer'.band.Contains x y := fun also => apart x y ⟨within, also⟩
    rw [paint_of_not_contains beside, paint_of_not_contains beside]
  · rw [paint_of_not_contains within, paint_of_not_contains within]

/-! ### Layer upon layer -/

/-- What becomes of a pixel under one layer after the other. -/
def paintAll (layers : List (Layer f)) (x y : Nat) (d : Color f) : Color f :=
  layers.foldl (fun d layer => layer.paint x y d) d

@[simp] theorem paintAll_nil : paintAll ([] : List (Layer f)) = fun _ _ d => d := rfl

theorem paintAll_cons (layer : Layer f) (layers : List (Layer f)) (x y : Nat) (d : Color f) :
    paintAll (layer :: layers) x y d = paintAll layers x y (layer.paint x y d) := rfl

/-- Only the layers count that contain the pixel. -/
theorem paintAll_eq (layers : List (Layer f)) (x y : Nat) (d : Color f) :
    paintAll layers x y d =
      (layers.filter fun layer => layer.band.Contains x y).foldl
        (fun d layer => layer.change x y d) d := by
  rw [List.foldl_filter, paintAll]
  simp only [decide_eq_true_eq]
  rfl

/-- Layers that do not contain a pixel leave it alone. -/
theorem paintAll_of_none {layers : List (Layer f)} {x y : Nat}
    (none : ∀ layer ∈ layers, ¬ layer.band.Contains x y) (d : Color f) :
    paintAll layers x y d = d := by
  have empty : layers.filter (fun layer => layer.band.Contains x y) = [] := by
    rw [List.filter_eq_nil_iff]
    intro layer mem here
    exact none layer mem (of_decide_eq_true here)
  rw [paintAll_eq, empty, List.foldl_nil]

/-- Layers that make the same of a pixel, whatever was in it before, decide. -/
theorem paintAll_of_agree {layers : List (Layer f)} {x y : Nat} {c : Color f}
    (agree : ∀ layer ∈ layers, layer.band.Contains x y → ∀ d, layer.change x y d = c)
    (covered : ∃ layer ∈ layers, layer.band.Contains x y) (d : Color f) :
    paintAll layers x y d = c := by
  induction layers generalizing d with
  | nil =>
      obtain ⟨_, none, _⟩ := covered
      cases none
  | cons first rest ih =>
      obtain ⟨agreeFirst, agreeRest⟩ := List.forall_mem_cons.mp agree
      rw [paintAll_cons]
      by_cases later : ∃ layer ∈ rest, layer.band.Contains x y
      · exact ih agreeRest later _
      · have here : first.band.Contains x y := by
          obtain ⟨layer, mem, here⟩ := covered
          rcases List.mem_cons.mp mem with rfl | mem
          · exact here
          · exact absurd ⟨layer, mem, here⟩ later
        rw [paintAll_of_none fun layer mem also => later ⟨layer, mem, also⟩,
          paint_of_contains here, agreeFirst here]

/-- Layers on one band make of its pixels what they add up to. -/
theorem paintAll_of_band {layers : List (Layer f)} {whole : Layer f}
    (onBand : ∀ layer ∈ layers, layer.band = whole.band)
    (same : ∀ x y, whole.band.Contains x y → ∀ d,
      layers.foldl (fun d layer => layer.change x y d) d = whole.change x y d) :
    paintAll layers = whole.paint := by
  funext x y d
  by_cases here : whole.band.Contains x y
  · have all : layers.filter (fun layer => layer.band.Contains x y) = layers := by
      rw [List.filter_eq_self]
      intro layer mem
      rw [onBand layer mem]
      exact decide_eq_true here
    rw [paintAll_eq, all, same x y here, paint_of_contains here]
  · rw [paint_of_not_contains here, paintAll_of_none]
    intro layer mem
    rwa [onBand layer mem]

/-- If one layer only contains a pixel, that decides. -/
theorem paintAll_of_only {layers : List (Layer f)} {i : Nat} {layer : Layer f} {x y : Nat}
    (there : layers[i]? = some layer) (here : layer.band.Contains x y)
    (only : ∀ j other, layers[j]? = some other → other.band.Contains x y → j = i) (d : Color f) :
    paintAll layers x y d = layer.change x y d := by
  induction layers generalizing i with
  | nil => cases there
  | cons first rest ih =>
      rw [paintAll_cons]
      cases i with
      | zero =>
          obtain rfl := Option.some.inj there
          rw [paint_of_contains here]
          refine paintAll_of_none ?_ _
          intro other mem also
          obtain ⟨j, hj⟩ := List.mem_iff_getElem?.mp mem
          exact absurd (only (j + 1) other hj also) (Nat.succ_ne_zero j)
      | succ i =>
          have beside : ¬ first.band.Contains x y :=
            fun also => absurd (only 0 first rfl also) (Nat.succ_ne_zero i).symm
          have later : ∀ j other, rest[j]? = some other → other.band.Contains x y → j = i :=
            fun j other hj also => Nat.succ.inj (only (j + 1) other hj also)
          rw [paint_of_not_contains beside]
          exact ih there later

end Layer

/-! ### Requests as layers -/

namespace Drawing

/-- Into whatever is of geometry `g`, the request draws a layer if its check passes, and it comes
to the error if not. -/
def Answers (g : Geometry) (drawing : Drawing f) (check : Except Error Unit)
    (layer : Layer f) : Prop :=
  ∀ (pool : Pool) (fb : Framebuffer f), fb.toGeometry = g →
    drawing.outcome pool fb = fb.answer check (fb.mapPixels layer.paint)

theorem answers_fillSpan (op : Operation f s) (x y n : UInt32) (c : Color s) :
    (fillSpan op x y n c).Answers g (g.checkSpan x y n) (.fill op (.ofSpan x y n) c) := by
  rintro pool fb rfl
  rw [outcome, fb.fillSpan_eq, Layer.paint_fill]

theorem answers_copySpan (op : Operation f s) (x y : UInt32) (src : Framebuffer s)
    (sx sy n : UInt32) :
    (copySpan op x y src sx sy n).Answers g
      (Framebuffer.checkCopySpan g src.toGeometry x y sx sy n)
      (.copy op (.ofSpan x y n) src sx.toNat sy.toNat) := by
  rintro pool fb rfl
  rw [outcome, fb.copySpan_eq, Layer.paint_copy]
  congr 2
  funext X Y d
  by_cases within : (Band.ofSpan x y n).Contains X Y
  · -- A span has one row, and that is the source's row, too.
    have row : Y - (Band.ofSpan x y n).y.toNat = 0 := by
      obtain ⟨rfl, -⟩ := Band.contains_ofSpan.mp within
      exact Nat.sub_self _
    rw [Band.inside_of_contains within, Band.inside_of_contains within, row, Nat.add_zero]
  · rw [Band.inside_of_not_contains within, Band.inside_of_not_contains within]

theorem answers_fillRows (op : Operation f s) (band : Band) (c : Color s)
    (threading : Threading) :
    (fillRows op band c threading).Answers g (Framebuffer.checkFill g band threading)
      (.fill op band c) := by
  rintro pool fb rfl
  rw [outcome, fb.fillRowsOn_eq, Layer.paint_fill]

theorem answers_copyRows (op : Operation f s) (band : Band) (src : Framebuffer s)
    (sx sy : UInt32) (threading : Threading) :
    (copyRows op band src sx sy threading).Answers g
      (Framebuffer.checkCopy g src.toGeometry band sx sy threading)
      (.copy op band src sx.toNat sy.toNat) := by
  rintro pool fb rfl
  rw [outcome, fb.copyRowsOn_eq, Layer.paint_copy]

/-! ### Requests that are as they should be -/

/-- The request answers with a layer, its rectangles are as they should be, and so it is granted
exactly if there are threads. -/
def Manned (g : Geometry) (threads : Prop) (drawing : Drawing f) (layer : Layer f) : Prop :=
  ∃ check rectangles, drawing.Answers g check layer ∧ Asks check rectangles threads ∧ rectangles

/-- A span needs no threads. -/
theorem manned_fillSpan (op : Operation f s) {x y n : UInt32} (c : Color s)
    (inside : g.HasSpan x y n) :
    (fillSpan op x y n c).Manned g True (.fill op (.ofSpan x y n) c) :=
  ⟨_, _, answers_fillSpan op x y n c, Asks.checkSpan g x y n, inside⟩

theorem manned_copySpan (op : Operation f s) {x y : UInt32} {src : Framebuffer s}
    {sx sy n : UInt32} (inside : g.HasSpan x y n) (insideSrc : src.HasSpan sx sy n) :
    (copySpan op x y src sx sy n).Manned g True
      (.copy op (.ofSpan x y n) src sx.toNat sy.toNat) :=
  ⟨_, _, answers_copySpan op x y src sx sy n,
    Asks.checkCopySpan g src.toGeometry x y sx sy n, inside, insideSrc⟩

theorem manned_fillRows (op : Operation f s) {band : Band} (c : Color s) (threading : Threading)
    (fits : band.Fits g.width g.height) :
    (fillRows op band c threading).Manned g (threading.threads ≠ some 0) (.fill op band c) :=
  ⟨_, _, answers_fillRows op band c threading, Asks.checkFill g band threading, fits⟩

theorem manned_copyRows (op : Operation f s) {band : Band} {src : Framebuffer s}
    {sx sy : UInt32} (threading : Threading) (fits : band.Fits g.width g.height)
    (fitsSrc : (band.movedTo sx sy).Fits src.width src.height) :
    (copyRows op band src sx sy threading).Manned g (threading.threads ≠ some 0)
      (.copy op band src sx.toNat sy.toNat) :=
  ⟨_, _, answers_copyRows op band src sx sy threading,
    Asks.checkCopy g src.toGeometry band sx sy threading, fits, fitsSrc⟩

variable {drawing : Drawing f} {layer : Layer f} {threads : Prop}

theorem Manned.answers (h : drawing.Manned g threads layer) (manned : threads) :
    drawing.Answers g (.ok ()) layer := by
  obtain ⟨check, rectangles, answers, asks, inside⟩ := h
  rwa [asks.passes inside manned] at answers

theorem Manned.refused {fb : Framebuffer f} (h : drawing.Manned fb.toGeometry threads layer)
    (idle : ¬ threads) (pool : Pool) :
    ∃ e, drawing.outcome pool fb = .stopped (.error e) fb ∧ e.category = .validation := by
  obtain ⟨check, rectangles, answers, asks, inside⟩ := h
  obtain ⟨e, rfl, category⟩ := asks.validation inside idle
  exact ⟨e, answers pool fb rfl, category⟩

/-! ### Requests in turn -/

/-- Requests that are granted come to their layers, one upon the other. -/
theorem inTurn_eq_mapPixels {drawings : List (Drawing f)} {layers : List (Layer f)}
    (granted : List.Forall₂ (fun drawing layer => drawing.Answers g (.ok ()) layer) drawings
      layers) (pools : Nat → Pool) (fb : Framebuffer f) (geometry : fb.toGeometry = g) :
    inTurn pools drawings fb = .finished (fb.mapPixels (Layer.paintAll layers)) := by
  induction granted generalizing pools fb with
  | nil => rw [inTurn, Layer.paintAll_nil, fb.mapPixels_id]
  | @cons drawing layer drawings layers here _ ih =>
      have first : drawing.outcome (pools 0) fb = .finished (fb.mapPixels layer.paint) :=
        here (pools 0) fb geometry
      rw [inTurn, first, Outcome.finished_andThen, ih _ (fb.mapPixels layer.paint) geometry,
        Framebuffer.mapPixels_mapPixels]
      rfl

end Drawing

end Raster
