import Raster.Json.Basic
/-!
# Records

A record has parts with fixed names. Its JSON form is an object, in any order and with
members of other names passed over, or an array of its parts in their fixed order, of
which the last may be left out.

In an object every key must denote a text, and no part may be given twice.
-/

namespace Raster.Json

/-- The parts of a record that are given, with their names. -/
def parts? (names : List String) : Json → Option (List (String × Json))
  | .array items => if items.length ≤ names.length then some (names.zip items) else none
  | .object members => do
      let named ← members.mapM fun (key, v) => key.map fun key => (key, v)
      let known := named.filter fun (key, _) => names.contains key
      if (known.map Prod.fst).Nodup then some known else none
  | _ => none

/-- Read the part of this name; `missing` stands in for one that is not given. -/
def part? {α : Type} (parts : List (String × Json)) (name : String) (read : Json → Option α)
    (missing : Option α) : Option α :=
  match parts.lookup name with
  | some v => read v
  | none => missing

/-! ### Reading parts -/

def bool? : Json → Option Bool
  | .bool b => some b
  | _ => none

/-- A natural number below `bound`. -/
def natBelow? (bound : Nat) : Json → Option Nat
  | .number literal => (Numeral.toNat? literal).filter (· < bound)
  | _ => none

def word32? (v : Json) : Option UInt32 := (v.natBelow? UInt32.size).map UInt32.ofNat

def word64? (v : Json) : Option UInt64 := (v.natBelow? UInt64.size).map UInt64.ofNat

def nullable? {α : Type} (read : Json → Option α) : Json → Option (Option α)
  | .null => some none
  | v => (read v).map some

/-- A word: the string of it, or an object whose only key it is, with null as its value. -/
def word? : Json → Option String
  | .text content => content
  | .object [(key, .null)] => key
  | _ => none

end Raster.Json
