import Raster.CommandLine.Run
import Raster.CommandLine.Usage
import Raster.Png
/-!
# The program

Reads and writes files, takes the time, and prints; what is done is said elsewhere.
-/

namespace Raster.Program

open CommandLine

/-- The exit code for arguments that are wrong. -/
def usageCode : UInt32 := 2

/-- What is in the file that a request names, if it can be read. -/
def contents (path : Option String) : IO (String → Option String) := do
  let some path := path | return fun _ => none
  try
    let text ← IO.FS.readFile path
    return fun other => if other = path then some text else none
  catch _ => return fun _ => none

def complain (text : String) : IO UInt32 := do
  IO.eprintln ("Error: " ++ text)
  return 1

/-- Write a file, and the folders it is in. -/
def write (path : String) (bytes : Png.Bytes) : IO Unit := do
  let folder := "/".intercalate (path.splitOn "/").dropLast
  unless folder.isEmpty do IO.FS.createDirAll folder
  IO.FS.writeBinFile path ⟨bytes⟩

def runCard (r : CardRequest) : IO UInt32 := do
  match r.run (← contents r.threading) with
  | .error c => complain c.text
  | .ok picture =>
      write r.out (Png.encode picture)
      IO.eprintln ("wrote " ++ r.out)
      return 0

/-- Run the passes of a bench, and take the time of each. -/
def timePasses {f : PixelFormat} (iterations : Nat) (threading : Threading) :
    Framebuffer f → List (Bench.Pass f) → IO (Except Failure (List Nat))
  | _, [] => return .ok []
  | fb, pass :: passes => do
      let start ← IO.monoNanosNow
      match ← IO.lazyPure fun _ => pass.run iterations threading fb with
      | .error e => return .error e
      | .ok fb =>
          let stop ← IO.monoNanosNow
          return (← timePasses iterations threading fb passes).map ((stop - start) :: ·)

def runBench (r : BenchRequest) : IO UInt32 := do
  match r.prepare (← contents r.threading) with
  | .error c => complain c.text
  | .ok (threading, setup) =>
      match ← timePasses r.iterations.toNat threading setup.target setup.passes with
      | .error e => complain (Complaint.failure e).text
      | .ok times =>
          IO.println ((r.report threading setup).toJson times).indented
          return 0

/-- Show what the arguments asked for, or say what is wrong with them. -/
def stop (s : Stop) : IO UInt32 := do
  match s with
  | .version =>
      IO.println Usage.version
      return 0
  | .help topic =>
      IO.println (Usage.text topic)
      return 0
  | .nothingAsked =>
      IO.eprintln (Usage.text none)
      return usageCode
  | mistake =>
      IO.eprintln ("error: " ++ mistake.message)
      return usageCode

end Raster.Program

open Raster Program CommandLine in
def main (arguments : List String) : IO UInt32 :=
  match Request.ofArguments arguments with
  | .error s => stop s
  | .ok (.card r) => runCard r
  | .ok (.bench r) => runBench r
