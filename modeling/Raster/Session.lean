import Mathlib.Logic.Function.Basic
import Raster.Framebuffer.Draw
/-!
# Sessions

A session is a sequence of requests to draw, each into one of a number of framebuffers that
are known by name, some of them taking their sources from another one. A `World` holds the
framebuffers; which format a name has is fixed, so a request says in its type that its
operation goes with the framebuffers it names.

A refused request does not end a session. `trace` is everything that can be seen of one: the
answer to each request, and the world after it. Every request has a pool of its own for the
rows it gives away.
-/

namespace Raster

variable {Name : Type} {formats : Name → PixelFormat}

/-- Framebuffers by name. -/
abbrev World (formats : Name → PixelFormat) : Type := (name : Name) → Framebuffer (formats name)

/-- A request that names the framebuffers it is about. -/
inductive Step (formats : Name → PixelFormat)
  | fillSpan (target : Name) {s : PixelFormat} (op : Operation (formats target) s)
      (x y n : UInt32) (c : Color s)
  | copySpan (target source : Name) (op : Operation (formats target) (formats source))
      (x y sx sy n : UInt32)
  | copySpanWithin (target : Name) (op : Operation (formats target) (formats target))
      (x y sx sy n : UInt32)
  | fillRows (target : Name) {s : PixelFormat} (op : Operation (formats target) s) (band : Band)
      (c : Color s) (threading : Threading)
  | copyRows (target source : Name) (op : Operation (formats target) (formats source))
      (band : Band) (sx sy : UInt32) (threading : Threading)

namespace Step

def target : Step formats → Name
  | .fillSpan target .. => target
  | .copySpan target .. => target
  | .copySpanWithin target .. => target
  | .fillRows target .. => target
  | .copyRows target .. => target

/-- What the request comes to in a world. -/
def outcome (pool : Pool) (w : World formats) :
    (step : Step formats) → Outcome Failure (Framebuffer (formats step.target))
  | .fillSpan target op x y n c => (w target).fillSpan op x y n c
  | .copySpan target source op x y sx sy n => (w target).copySpan op x y (w source) sx sy n
  | .copySpanWithin target op x y sx sy n => (w target).copySpanWithin op x y sx sy n
  | .fillRows target op band c threading => (w target).fillRowsOn pool op band c threading
  | .copyRows target source op band sx sy threading =>
      (w target).copyRowsOn pool op band (w source) sx sy threading

/-- What can be seen of a request: why it failed, if it did, and the world after it. -/
def run [DecidableEq Name] (pool : Pool) (step : Step formats) (w : World formats) :
    Option Failure × World formats :=
  let outcome := step.outcome pool w
  (outcome.cause?, Function.update w step.target outcome.state)

end Step

/-- What can be seen of a session, request by request. -/
def trace [DecidableEq Name] : (pools : Nat → Pool) → (session : List (Step formats)) →
    World formats → List (Option Failure × World formats)
  | _, [], _ => []
  | pools, step :: session, w =>
      let seen := step.run (pools 0) w
      seen :: trace (fun i => pools (i + 1)) session seen.2

end Raster
