/-!
# Arguments

What an argument looks like decides what it can be. Two dashes alone end the flags; two
dashes begin a name, which may have a value attached by an equals sign; one dash begins
single letters; everything else is a word, a dash alone among them.
-/

namespace Raster.CommandLine

/-- An argument by its looks. -/
inductive Argument
  /-- Two dashes alone. -/
  | endOfFlags
  /-- A name after two dashes, and the value after its first equals sign. -/
  | named (name : String) (value : Option String)
  /-- A letter after one dash; more may follow it. -/
  | letters (first : Char)
  /-- Anything else. -/
  | word (text : String)
  deriving DecidableEq

def Argument.ofString (argument : String) : Argument :=
  match argument.toList with
  | ['-', '-'] => .endOfFlags
  | '-' :: '-' :: cs =>
      let value := match cs.dropWhile (· != '=') with
        | [] => none
        | _ :: value => some (String.ofList value)
      .named (String.ofList (cs.takeWhile (· != '='))) value
  | '-' :: first :: _ => .letters first
  | _ => .word argument

end Raster.CommandLine
