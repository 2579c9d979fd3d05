import Raster.CommandLine.Flag
/-!
# Arguments that lead to no run

Either the arguments ask for a text to be shown, or something is wrong with them. The
wording is `Stop.message`.
-/

namespace Raster.CommandLine

/-- Why arguments do not lead to a run. -/
inductive Stop
  /-- They ask how to use a command, or the program. -/
  | help (topic : Option Command)
  /-- They ask for the version. -/
  | version
  /-- There are none. -/
  | nothingAsked
  /-- The word for a command is not one. -/
  | unknownCommand (word : String)
  /-- There is no place for this argument. -/
  | unknownArgument (argument : String)
  /-- A value is given to something that has none. -/
  | needlessValue (argument : String)
  /-- A flag is given again. -/
  | repeated (flag : Flag)
  /-- A flag stands without its value. -/
  | missingValue (flag : Flag)
  /-- A value is not one of those that the flag can have. -/
  | unsuitableValue (flag : Flag) (text : String)
  /-- A value is not a number that the flag can have. -/
  | unsuitableNumber (flag : Flag) (text : String)
  /-- A flag that must be given is not. -/
  | missingFlag (flag : Flag)
  deriving DecidableEq

namespace Stop

/-- What is wrong; asking for a text is no mistake. -/
def message : Stop → String
  | .help _ | .version => ""
  | .nothingAsked => "a command is needed"
  | .unknownCommand word => s!"there is no command '{word}'"
  | .unknownArgument argument => s!"unexpected argument '{argument}'"
  | .needlessValue argument => s!"no value is expected in '{argument}'"
  | .repeated flag => s!"'--{flag.name}' cannot be given more than once"
  | .missingValue flag => s!"'--{flag.name}' needs a value"
  | .unsuitableValue flag text => s!"'{text}' is no value for '--{flag.name}'"
  | .unsuitableNumber flag text => s!"'{text}' is no number for '--{flag.name}'"
  | .missingFlag flag => s!"'--{flag.name}' must be given"

end Stop

end Raster.CommandLine
