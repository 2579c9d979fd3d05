import Raster.Json.Basic
/-!
# JSON laid out in lines

The text of a value with every item and every member on a line of its own, indented by
two spaces for each container around it. An empty container stays on its line.
-/

namespace Raster.Json

def ofNat (n : Nat) : Json := .number (Nat.toDigits 10 n)

def ofString (s : String) : Json := .text (some s)

def ofMembers (members : List (String × Json)) : Json :=
  .object (members.map fun (key, v) => (some key, v))

namespace Layout

/-- A character within a literal. Quotation marks, backslashes and control characters
cannot stand for themselves. -/
def escape (c : Char) : List Char :=
  if c = '"' ∨ c = '\\' then ['\\', c]
  else if c < ' ' then
    ['\\', 'u', '0', '0', Nat.digitChar (c.toNat / 16), Nat.digitChar (c.toNat % 16)]
  else [c]

/-- The literal for a text; a string that denotes none is left empty. -/
def literal (content : Option String) : String :=
  "\"" ++ String.ofList ((content.getD "").toList.flatMap escape) ++ "\""

/-- The end of a line and the blanks before the next. -/
def newline (depth : Nat) : String := "\n" ++ "".pushn ' ' (2 * depth)

/-- Parts between the two ends of a container that stands at this depth. -/
def container (first last : String) (depth : Nat) (parts : List String) : String :=
  if parts.isEmpty then first ++ last
  else
    first ++ newline (depth + 1) ++ ("," ++ newline (depth + 1)).intercalate parts
      ++ newline depth ++ last

mutual
/-- The text of a value that stands at this depth. -/
def value (depth : Nat) : Json → String
  | .null => "null"
  | .bool b => if b then "true" else "false"
  | .number digits => String.ofList digits
  | .text content => literal content
  | .array vs => container "[" "]" depth (items (depth + 1) vs)
  | .object ms => container "\x7b" "\x7d" depth (members (depth + 1) ms)
def items (depth : Nat) : List Json → List String
  | [] => []
  | v :: vs => value depth v :: items depth vs
def members (depth : Nat) : List (Option String × Json) → List String
  | [] => []
  | (key, v) :: ms => (literal key ++ ": " ++ value depth v) :: members depth ms
end

end Layout

def indented (v : Json) : String := Layout.value 0 v

end Raster.Json
