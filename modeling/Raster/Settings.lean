import Raster.Geometry
import Raster.Json.Layout
import Raster.Json.Record
import Raster.Threading
/-!
# Settings as JSON

How a threading setting, a band and a row order are read from JSON texts, and how a
threading setting is written. In a threading
setting every part may be left out and is then the default's; of a band all four numbers
must be there; a row order is its name.

A text that does not describe a setting is refused as such, whatever is wrong with it.
Only a threading setting that has been read completely is then checked.
-/

namespace Raster

/-- The threading setting that a value describes. -/
def Threading.ofJson? (v : Json) : Option Threading := do
  let parts ← v.parts? ["parallel", "threads", "min_rows_per_task"]
  let standard : Threading := default
  let parallel ← Json.part? parts "parallel" Json.bool? (some standard.parallel)
  let threads ←
    Json.part? parts "threads" (Json.nullable? Json.word64?) (some standard.threads)
  let minRowsPerTask ←
    Json.part? parts "min_rows_per_task" Json.word64? (some standard.minRowsPerTask)
  return { parallel, threads, minRowsPerTask }

/-- The threading setting that a text describes, if it is one that can be used. -/
def Threading.ofText (text : String) : Except Error Threading :=
  match (Json.ofText? text).bind ofJson? with
  | none => .error .malformedText
  | some t => t.check.map fun _ => t

def Threading.toJson (t : Threading) : Json :=
  .ofMembers [("parallel", .bool t.parallel),
    ("threads", (t.threads.map fun n => Json.ofNat n.toNat).getD .null),
    ("min_rows_per_task", .ofNat t.minRowsPerTask.toNat)]

def Band.ofJson? (v : Json) : Option Band := do
  let parts ← v.parts? ["x", "y", "width", "height"]
  let number (name : String) : Option UInt32 := Json.part? parts name Json.word32? none
  return { x := ← number "x", y := ← number "y", width := ← number "width",
           height := ← number "height" }

def Band.ofText (text : String) : Except Error Band :=
  match (Json.ofText? text).bind ofJson? with
  | none => .error .malformedText
  | some band => .ok band

def RowOrder.ofJson? (v : Json) : Option RowOrder := v.word?.bind RowOrder.ofName?

def RowOrder.ofText (text : String) : Except Error RowOrder :=
  match (Json.ofText? text).bind ofJson? with
  | none => .error .malformedText
  | some order => .ok order

end Raster
