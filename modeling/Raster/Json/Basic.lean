import Raster.Json.Token
/-!
# JSON values

A value is read from its tokens by a machine that takes one token at a time. What it has
read and not yet finished is a stack of containers, the innermost first, so that any
depth of nesting can be read; `State` says what may come next. A text is one value with
nothing after it.
-/

namespace Raster

/-- A JSON value. -/
inductive Json
  | null
  | bool (value : Bool)
  /-- A number, as it was written. -/
  | number (literal : List Char)
  /-- A string, with the text that it denotes, if it denotes one. -/
  | text (content : Option String)
  /-- Values in order. -/
  | array (items : List Json)
  /-- Keys with their values, in order; a key may occur again. -/
  | object (members : List (Option String × Json))

namespace Json

/-- A container whose end has not been reached, with what it holds so far, the latest
first. -/
inductive Frame
  | array (items : List Json)
  | object (members : List (Option String × Json)) (key : Option String)

/-- What has been read, and what may come next. -/
inductive State
  /-- A value must come. -/
  | value (stack : List Frame)
  /-- An array has begun: its first item or its end must come. -/
  | firstItem (stack : List Frame)
  /-- An object has begun: its first key or its end must come. -/
  | firstKey (stack : List Frame)
  /-- Another key must come. -/
  | key (members : List (Option String × Json)) (stack : List Frame)
  /-- A colon must come. -/
  | colon (members : List (Option String × Json)) (key : Option String) (stack : List Frame)
  /-- A value is complete: the container around it must go on or end. -/
  | complete (v : Json) (stack : List Frame)

/-- Take the first token of a value. -/
def State.start? (stack : List Frame) : Token → Option State
  | .beginArray => some (.firstItem stack)
  | .beginObject => some (.firstKey stack)
  | .null => some (.complete .null stack)
  | .bool b => some (.complete (.bool b) stack)
  | .number literal => some (.complete (.number literal) stack)
  | .text content => some (.complete (.text content) stack)
  | .endArray | .endObject | .colon | .comma => none

/-- Take one token. -/
def State.step? : State → Token → Option State
  | .value stack, t => start? stack t
  | .firstItem stack, .endArray => some (.complete (.array []) stack)
  | .firstItem stack, t => start? (.array [] :: stack) t
  | .firstKey stack, .endObject => some (.complete (.object []) stack)
  | .firstKey stack, .text k => some (.colon [] k stack)
  | .key members stack, .text k => some (.colon members k stack)
  | .colon members k stack, .colon => some (.value (.object members k :: stack))
  | .complete v (.array items :: stack), .comma => some (.value (.array (v :: items) :: stack))
  | .complete v (.array items :: stack), .endArray =>
      some (.complete (.array (v :: items).reverse) stack)
  | .complete v (.object members k :: stack), .comma => some (.key ((k, v) :: members) stack)
  | .complete v (.object members k :: stack), .endObject =>
      some (.complete (.object ((k, v) :: members).reverse) stack)
  | _, _ => none

/-- The value that all the tokens spell. -/
def ofTokens? (ts : List Token) : Option Json :=
  match ts.foldlM State.step? (.value []) with
  | some (.complete v []) => some v
  | _ => none

/-- The value that the whole text spells. -/
def ofText? (text : String) : Option Json := (Token.scan? text.toList).bind ofTokens?

end Json

end Raster
