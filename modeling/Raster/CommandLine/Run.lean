import Raster.Bench
import Raster.CommandLine.Request
import Raster.Settings
import Raster.TestCard
/-!
# Runs

Doing what a request asks for, up to the reading and writing of files: `files` says what
is in a file, and a card comes back as the picture to be written.

What a request cannot have is found first, then what is wrong with its files, then what
is wrong with the drawing.
-/

namespace Raster.CommandLine

/-- Why a run came to nothing. -/
inductive Complaint
  /-- A card needs a row for each of its bands. -/
  | cardTooSmall
  /-- A bench needs a pixel. -/
  | benchEmpty
  /-- A bench has something to do. -/
  | benchIdle
  /-- There is no text to be read in this file. -/
  | unreadable (path : String)
  /-- Something asked of the framebuffers failed. -/
  | failure (failure : Failure)
  deriving DecidableEq

/-- What is wrong; a failure has words of its own. -/
def Complaint.message? : Complaint → Option String
  | .cardTooSmall => some s!"card needs width >= 1 and height >= {TestCard.bandCount}"
  | .benchEmpty => some "bench needs a non-empty framebuffer"
  | .benchIdle => some "bench needs at least one iteration"
  | .unreadable path => some s!"read threading config '{path}'"
  | .failure _ => none

/-- What is wrong, in words. -/
def Complaint.text : Complaint → String
  | .failure (.error e) => e.message
  | .failure (.fault e) => e.message?.getD "a broken precondition"
  | c => c.message?.getD ""

/-- The threading setting in a file, or the default. -/
def readThreading (files : String → Option String) (path : Option String) :
    Except Complaint Threading :=
  match path with
  | none => .ok default
  | some path =>
      match files path with
      | none => .error (.unreadable path)
      | some text => (Threading.ofText text).mapError fun e => .failure (.error e)

namespace CardRequest

/-- The picture to be written. -/
def run (r : CardRequest) (files : String → Option String) : Except Complaint Picture := do
  if r.width = 0 ∨ r.height.toNat < TestCard.bandCount then .error .cardTooSmall
  let threading ← readThreading files r.threading
  let card ← (TestCard.draw r.format ⟨r.width, r.height, r.order⟩ threading).mapError .failure
  card.picture.toWrite.mapError fun e => .failure (.error e)

end CardRequest

/-- What is said about a pass, apart from how long it took. -/
structure PassReport where
  name : String
  mode : String
  deriving DecidableEq

/-- What is said about a bench. -/
structure BenchReport where
  request : BenchRequest
  threading : Threading
  passes : List PassReport
  deriving DecidableEq

namespace BenchReport

/-- A number of parts in `10 ^ places` of a unit, as a decimal with this many places. -/
def decimal (places n : Nat) : Json :=
  let digits := Nat.toDigits 10 (n % Nat.pow 10 places)
  .number (Nat.toDigits 10 (n / Nat.pow 10 places) ++
    '.' :: (List.replicate (places - digits.length) '0' ++ digits))

/-- The report as a value, given how many nanoseconds each pass took. -/
def toJson (r : BenchReport) (nanoseconds : List Nat) : Json :=
  let pixels := r.request.width.toNat * r.request.height.toNat * r.request.iterations.toNat
  let results := (r.passes.zip nanoseconds).map fun (pass, time) =>
    Json.ofMembers [("op", .ofString pass.name), ("mode", .ofString pass.mode),
      ("total_ms", decimal 6 time), ("ns_per_pixel", decimal 3 (1000 * time / pixels))]
  .ofMembers [("format", .ofString r.request.format.name),
    ("width", .ofNat r.request.width.toNat), ("height", .ofNat r.request.height.toNat),
    ("iterations", .ofNat r.request.iterations.toNat), ("threading", r.threading.toJson),
    ("results", .array results)]

end BenchReport

namespace BenchRequest

/-- The setting and the passes to be run. -/
def prepare (r : BenchRequest) (files : String → Option String) :
    Except Complaint (Threading × Bench.Setup r.format) := do
  if r.width = 0 ∨ r.height = 0 then .error .benchEmpty
  if r.iterations = 0 then .error .benchIdle
  let threading ← readThreading files r.threading
  let setup ← (Bench.setup r.format r.width r.height threading).mapError .failure
  return (threading, setup)

/-- What is said about the passes. -/
def report (r : BenchRequest) (threading : Threading) (setup : Bench.Setup r.format) :
    BenchReport where
  request := r
  threading
  passes := setup.passes.map fun pass => ⟨pass.name, pass.mode⟩

/-- The report on a bench, all of whose passes have been run. -/
def run (r : BenchRequest) (files : String → Option String) : Except Complaint BenchReport := do
  let (threading, setup) ← r.prepare files
  let _ ← (setup.run r.iterations.toNat threading).mapError .failure
  return r.report threading setup

end BenchRequest

end Raster.CommandLine
