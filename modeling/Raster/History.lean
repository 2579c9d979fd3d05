import Raster.Session
/-!
# Histories

What a framebuffer has been through. It was made, blank or of given bytes, and after that it
was drawn into any number of times: in spans and bands, which are checked and may be refused,
or at locations, which nobody checks and which may fault halfway. A `Drawing` is one such
request with all that it takes from elsewhere. A failed one belongs to the history like any
other, with the framebuffer that it leaves.

What a framebuffer goes through in a session is a part of its history (`history_of_mem_trace`).
-/

namespace Raster

variable {f : PixelFormat}

/-- A request to draw into a framebuffer of format `f`. -/
inductive Drawing (f : PixelFormat)
  | fillSpan {s : PixelFormat} (op : Operation f s) (x y n : UInt32) (c : Color s)
  | copySpan {s : PixelFormat} (op : Operation f s) (x y : UInt32) (src : Framebuffer s)
      (sx sy n : UInt32)
  | copySpanWithin (op : Operation f f) (x y sx sy n : UInt32)
  | fillRows {s : PixelFormat} (op : Operation f s) (band : Band) (c : Color s)
      (threading : Threading)
  | copyRows {s : PixelFormat} (op : Operation f s) (band : Band) (src : Framebuffer s)
      (sx sy : UInt32) (threading : Threading)
  | fillRowBytes (y : UInt32) (value : UInt8)
  | fillAt {s : PixelFormat} (op : Operation f s) (start : Location) (n : Nat) (c : Color s)
  | copyAt {s : PixelFormat} (op : Operation f s) (start : Location) (src : Framebuffer s)
      (source : Location) (n : Nat)
  | copyWithinAt (op : Operation f f) (start source : Location) (n : Nat)

/-- What the request comes to, with a pool for the rows it gives away. -/
def Drawing.outcome (pool : Pool) (fb : Framebuffer f) :
    Drawing f → Outcome Failure (Framebuffer f)
  | .fillSpan op x y n c => fb.fillSpan op x y n c
  | .copySpan op x y src sx sy n => fb.copySpan op x y src sx sy n
  | .copySpanWithin op x y sx sy n => fb.copySpanWithin op x y sx sy n
  | .fillRows op band c threading => fb.fillRowsOn pool op band c threading
  | .copyRows op band src sx sy threading => fb.copyRowsOn pool op band src sx sy threading
  | .fillRowBytes y value => fb.fillRowBytes y value
  | .fillAt op start n c => fb.fillAt op start n c
  | .copyAt op start src source n => fb.copyAt op start src source n
  | .copyWithinAt op start source n => fb.copyWithinAt op start source n

/-- What requests come to one after the other, up to the first that stops. -/
def Drawing.inTurn (pools : Nat → Pool) :
    List (Drawing f) → Framebuffer f → Outcome Failure (Framebuffer f)
  | [], fb => .finished fb
  | drawing :: rest, fb =>
      (drawing.outcome (pools 0) fb).andThen (inTurn (fun i => pools (i + 1)) rest)

/-- The framebuffer was made with a geometry and has been drawn into since. -/
inductive Framebuffer.History (g : Geometry) : Framebuffer f → Prop
  /-- It was made blank. -/
  | blank {fb : Framebuffer f} (made : Framebuffer.blank f g = .ok fb) : History g fb
  /-- It was made of given bytes. -/
  | ofBytes {fb : Framebuffer f} {bytes : Buffer}
      (made : Framebuffer.ofBytes f g bytes = .ok fb) : History g fb
  /-- It is what a request has left, whether or not it was granted. -/
  | drawn {fb : Framebuffer f} (past : History g fb) (pool : Pool) (drawing : Drawing f) :
      History g (drawing.outcome pool fb).state

/-! ### Sessions -/

variable {Name : Type} {formats : Name → PixelFormat} {g : Name → Geometry} {w : World formats}

/-- The request as one to the framebuffer that is drawn into. -/
def Step.drawing (w : World formats) : (step : Step formats) → Drawing (formats step.target)
  | .fillSpan _ op x y n c => .fillSpan op x y n c
  | .copySpan _ source op x y sx sy n => .copySpan op x y (w source) sx sy n
  | .copySpanWithin _ op x y sx sy n => .copySpanWithin op x y sx sy n
  | .fillRows _ op band c threading => .fillRows op band c threading
  | .copyRows _ source op band sx sy threading => .copyRows op band (w source) sx sy threading

theorem Step.outcome_eq_drawing (pool : Pool) (w : World formats) (step : Step formats) :
    step.outcome pool w = (step.drawing w).outcome pool (w step.target) := by
  cases step with
  | fillSpan => rfl
  | copySpan => rfl
  | copySpanWithin => rfl
  | fillRows => rfl
  | copyRows => rfl

/-- A step of a session goes into the history of the framebuffer that is drawn into, and no other
changes. -/
theorem Step.history_run [DecidableEq Name] (pasts : ∀ name, (w name).History (g name))
    (pool : Pool) (step : Step formats) (name : Name) :
    ((step.run pool w).2 name).History (g name) := by
  by_cases drawnInto : name = step.target
  · subst drawnInto
    simp only [run, Function.update_self, step.outcome_eq_drawing]
    exact .drawn (pasts _) pool _
  · simp only [run, Function.update_of_ne drawnInto]
    exact pasts name

/-- Whatever is seen in a session has a history. -/
theorem history_of_mem_trace [DecidableEq Name] (pools : Nat → Pool)
    (session : List (Step formats)) (pasts : ∀ name, (w name).History (g name)) :
    ∀ seen ∈ trace pools session w, ∀ name, (seen.2 name).History (g name) := by
  induction session generalizing w pools with
  | nil =>
      intro seen none
      cases none
  | cons step session ih =>
      have next := step.history_run pasts (pools 0)
      intro seen here
      rw [trace, List.mem_cons] at here
      rcases here with rfl | later
      · exact next
      · exact ih _ next seen later

end Raster
