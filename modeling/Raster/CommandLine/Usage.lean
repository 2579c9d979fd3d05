import Raster.CommandLine.Request
/-!
# How to use the program

The texts that are shown when they are asked for.
-/

namespace Raster.CommandLine

def Flag.purpose : Flag → String
  | .format => "Pixel format of the framebuffer: gray8, rgb565 or bgra8888"
  | .width => "Width in pixels"
  | .height => "Height in pixels"
  | .bottomUp => "Store rows bottom-up"
  | .iterations => "Passes per operation"
  | .out => "Output PNG path"
  | .threading => "File with the threading setting in JSON"

def Command.purpose : Command → String
  | .card => "Render a test card exercising every operation and save it as a PNG"
  | .bench => "Time fills and copies for every operation and print a JSON report"

namespace Usage

def program : String := "raster"

def version : String := program ++ " 0.1.0"

/-- A word and what it is for, in two columns. -/
def entry (word purpose : String) : String :=
  "  " ++ word ++ "".pushn ' ' (24 - word.length) ++ purpose

/-- A flag as it is written, and what it is for. -/
def flagEntry (flag : Flag) : String :=
  let hint := if flag.isSwitch then "" else " <" ++ flag.name.map Char.toUpper ++ ">"
  entry ("--" ++ flag.name ++ hint) flag.purpose

def text : Option Command → String
  | none =>
      "\n".intercalate (["Usage: " ++ program ++ " <COMMAND>", "", "Commands:"]
        ++ [Command.card, Command.bench].map (fun c => entry c.name c.purpose)
        ++ [entry Request.helpWord "Show this text, or that of a command"])
  | some command =>
      "\n".intercalate ([command.purpose, "",
          "Usage: " ++ program ++ " " ++ command.name ++ " [OPTIONS]", "", "Options:"]
        ++ command.flags.map flagEntry ++ [entry "-h, --help" "Show this text"])

end Usage

end Raster.CommandLine
