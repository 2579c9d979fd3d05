import Raster.CommandLine.Argument
import Raster.CommandLine.Stop
import Raster.Geometry
/-!
# Requests

What arguments ask for. The first argument names a command and the rest are its flags,
read from left to right.

The value of a flag stands in the same argument, or is the next one. In the second case
it is not looked at until the flag after it has been recognized or the arguments have
ended (`Reading.settle`), so of two mistakes an unknown flag is found before a bad value
to the left of it. A flag that is given twice is found before its second value is read.
-/

namespace Raster.CommandLine

/-! ### Values -/

/-- A 32-bit number in decimal digits. It may have a sign, if it is zero or positive. -/
def number? (text : String) : Option UInt32 :=
  let read (digits : List Char) (limit : Nat) : Option UInt32 :=
    if digits ≠ [] ∧ digits.all Char.isDigit ∧ Nat.ofDigitChars 10 digits 0 < limit then
      some (UInt32.ofNat (Nat.ofDigitChars 10 digits 0))
    else none
  match text.toList with
  | '-' :: digits => read digits 1
  | '+' :: digits => read digits UInt32.size
  | digits => read digits UInt32.size

/-- The value that a text is for a flag. A path must not be empty. -/
def Flag.read (flag : Flag) (text : String) : Except Stop flag.Value :=
  let number (flag : Flag) : Except Stop UInt32 :=
    match number? text with
    | some n => .ok n
    | none => .error (.unsuitableNumber flag text)
  let path (flag : Flag) : Except Stop String :=
    if text.isEmpty then .error (.unsuitableValue flag text) else .ok text
  match flag with
  | .format =>
      match PixelFormat.ofName? text with
      | some f => .ok f
      | none => .error (.unsuitableValue .format text)
  | .width => number .width
  | .height => number .height
  | .iterations => number .iterations
  | .bottomUp => .ok ()
  | .out => path .out
  | .threading => path .threading

/-- Add a flag and its value. -/
def Given.add (given : Given) (flag : Flag) (text : String) : Except Stop Given :=
  if (given flag).isSome then .error (.repeated flag)
  else (flag.read text).map (given.set flag)

/-! ### The flags of a command -/

/-- What has been read of a command's arguments. -/
structure Reading where
  given : Given
  /-- A flag whose value has not been read, with the text of it if that has come. -/
  waiting : Option (Flag × Option String)
  /-- Whether no more flags may come. -/
  ended : Bool

namespace Reading

def start : Reading := ⟨.nothing, none, false⟩

/-- Read the value that waits to be read. -/
def settle (r : Reading) : Except Stop Given :=
  match r.waiting with
  | none => .ok r.given
  | some (flag, none) => .error (.missingValue flag)
  | some (flag, some text) => r.given.add flag text

/-- A request for help is granted if what came before it was right. -/
def help (r : Reading) (command : Command) : Except Stop Reading :=
  r.settle.bind fun _ => .error (.help command)

def named (r : Reading) (command : Command) (argument name : String) (value : Option String) :
    Except Stop Reading := do
  match command.flag? name, value with
  | none, some _ =>
      if name = "help" then .error (.needlessValue argument)
      else .error (.unknownArgument argument)
  | none, none => if name = "help" then r.help command else .error (.unknownArgument argument)
  | some flag, some text =>
      if flag.isSwitch then .error (.needlessValue argument)
      else return ⟨← (← r.settle).add flag text, none, false⟩
  | some flag, none =>
      let given ← r.settle
      if flag.isSwitch then return ⟨← given.add flag "", none, false⟩
      else return ⟨given, some (flag, none), false⟩

def step (command : Command) (r : Reading) (argument : String) : Except Stop Reading :=
  if r.ended then .error (.unknownArgument argument)
  else
    match Argument.ofString argument with
    | .endOfFlags => .ok { r with ended := true }
    | .named name value => r.named command argument name value
    | .letters first =>
        if first = 'h' then r.help command else .error (.unknownArgument argument)
    | .word text =>
        match r.waiting with
        | some (flag, none) => .ok { r with waiting := some (flag, some text) }
        | _ => .error (.unknownArgument argument)

def all (command : Command) (arguments : List String) : Except Stop Given :=
  (arguments.foldlM (step command) start).bind settle

end Reading

/-! ### Requests -/

/-- A test card to be drawn. -/
structure CardRequest where
  format : PixelFormat
  width : UInt32
  height : UInt32
  order : RowOrder
  out : String
  /-- The file with the threading setting, or none for the default. -/
  threading : Option String
  deriving DecidableEq

/-- A bench to be run. -/
structure BenchRequest where
  format : PixelFormat
  width : UInt32
  height : UInt32
  iterations : UInt32
  threading : Option String
  deriving DecidableEq

/-- A run that is asked for. -/
inductive Request
  | card (request : CardRequest)
  | bench (request : BenchRequest)
  deriving DecidableEq

/-- The format where none is given. -/
def standardFormat : PixelFormat := .bgra8888

/-- The request for a test card. A file to write must be given. -/
def CardRequest.ofGiven (given : Given) : Except Stop CardRequest :=
  match given .out with
  | none => .error (.missingFlag .out)
  | some out => .ok {
      format := (given .format).getD standardFormat
      width := (given .width).getD 320
      height := (given .height).getD 240
      order := if (given .bottomUp).isSome then .bottomUp else .topDown
      out
      threading := given .threading }

def BenchRequest.ofGiven (given : Given) : BenchRequest where
  format := (given .format).getD standardFormat
  width := (given .width).getD 1920
  height := (given .height).getD 1080
  iterations := (given .iterations).getD 20
  threading := given .threading

namespace Request

/-- The request made by a command's arguments. -/
def ofCommand (command : Command) (arguments : List String) : Except Stop Request := do
  let given ← Reading.all command arguments
  match command with
  | .card => return .card (← CardRequest.ofGiven given)
  | .bench => return .bench (BenchRequest.ofGiven given)

/-- The word that asks for help, on its own or on the command that follows it. -/
def helpWord : String := "help"

/-- What help is asked for. The word for help has nothing to be helped with below it. -/
def helpTopic (words : List String) : Stop :=
  match words with
  | [] => .help none
  | [word] =>
      match Command.ofName? word with
      | some command => .help command
      | none => if word = helpWord then .help none else .unknownCommand word
  | word :: next :: _ =>
      if (Command.ofName? word).isSome ∨ word = helpWord then .unknownCommand next
      else .unknownCommand word

/-- What the arguments of the program ask for. -/
def ofArguments : List String → Except Stop Request
  | [] => .error .nothingAsked
  | first :: rest =>
      match Argument.ofString first with
      | .word word =>
          match Command.ofName? word with
          | some command => ofCommand command rest
          | none =>
              if word = helpWord then .error (helpTopic rest) else .error (.unknownCommand word)
      | .named "help" none => .error (.help none)
      | .named "version" none => .error .version
      | .named name value =>
          if (name = "help" ∨ name = "version") ∧ value.isSome then .error (.needlessValue first)
          else .error (.unknownArgument first)
      | .letters 'h' => .error (.help none)
      | .letters 'V' => .error .version
      | .letters _ => .error (.unknownArgument first)
      | .endOfFlags =>
          match rest with
          | [] => .error .nothingAsked
          | word :: _ =>
              if (Command.ofName? word).isSome ∨ word = helpWord then
                .error (.unknownArgument word)
              else .error (.unknownCommand word)

end Request

end Raster.CommandLine
