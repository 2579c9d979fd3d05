import Raster.PixelFormat
/-!
# Commands and their flags

There are two commands, and each has flags. A flag has a name that is written after two
dashes, and, unless it is a switch, a value of a fixed type (`Flag.Value`). What has been
given so far is then a partial function from flags to their values (`Given`).
-/

namespace Raster.CommandLine

/-- What can be asked for. -/
inductive Command
  /-- To draw the test card and write it to a file. -/
  | card
  /-- To run the bench and report on it. -/
  | bench
  deriving DecidableEq

namespace Command

def name : Command → String
  | .card => "card"
  | .bench => "bench"

def ofName? (word : String) : Option Command := [card, bench].find? (·.name == word)

end Command

/-- What can be said about a command. -/
inductive Flag
  | format
  | width
  | height
  /-- Rows from the bottom up. -/
  | bottomUp
  /-- How often a pass is repeated. -/
  | iterations
  /-- The file to write. -/
  | out
  /-- The file with the threading setting. -/
  | threading
  deriving DecidableEq

namespace Flag

def name : Flag → String
  | .format => "format"
  | .width => "width"
  | .height => "height"
  | .bottomUp => "bottom-up"
  | .iterations => "iterations"
  | .out => "out"
  | .threading => "threading"

/-- The type of the flag's values. -/
abbrev Value : Flag → Type
  | .format => PixelFormat
  | .width | .height | .iterations => UInt32
  | .bottomUp => Unit
  | .out | .threading => String

/-- A switch is given or not, and has no value. -/
def isSwitch : Flag → Bool
  | .bottomUp => true
  | _ => false

end Flag

namespace Command

def flags : Command → List Flag
  | .card => [.format, .width, .height, .bottomUp, .out, .threading]
  | .bench => [.format, .width, .height, .iterations, .threading]

/-- The command's flag of this name. -/
def flag? (command : Command) (name : String) : Option Flag :=
  command.flags.find? (·.name == name)

end Command

/-- The values that have been given. -/
def Given : Type := (flag : Flag) → Option flag.Value

namespace Given

def nothing : Given := fun _ => none

def set (given : Given) (flag : Flag) (v : flag.Value) : Given := fun other =>
  if h : flag = other then some (h ▸ v) else given other

end Given

end Raster.CommandLine
