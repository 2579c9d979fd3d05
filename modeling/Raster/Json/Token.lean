import Raster.Json.Numeral
import Raster.Json.Text
/-!
# Tokens

The words of a JSON text. `Token.scan?` splits a text into them: blanks may stand
between any two and nothing else may, and every token is as long as it can be. What
follows a token is always shorter than what it was taken from (`length_lt_of_next?`), so
the splitting comes to an end.

A string is kept by the text it denotes, or by nothing if its escapes denote none: where
a value does not matter, such a string is a string all the same. A numeral is kept as it
was written.
-/

namespace Raster.Json

/-- A word of a JSON text. -/
inductive Token
  | beginObject
  | endObject
  | beginArray
  | endArray
  /-- What stands between a key and its value. -/
  | colon
  /-- What stands between items or members. -/
  | comma
  | null
  /-- The word `true` or `false`. -/
  | bool (value : Bool)
  | number (literal : List Char)
  /-- A string, with the text that it denotes. -/
  | text (content : Option String)
  deriving DecidableEq

namespace Token

/-- The characters that may stand between tokens. -/
def isBlank (c : Char) : Bool := c == ' ' || c == '\t' || c == '\n' || c == '\r'

/-- The token at the front of a text, and what follows it. -/
def next? : List Char → Option (Token × List Char)
  | [] => none
  | '\x7b' :: rest => some (.beginObject, rest)
  | '\x7d' :: rest => some (.endObject, rest)
  | '[' :: rest => some (.beginArray, rest)
  | ']' :: rest => some (.endArray, rest)
  | ':' :: rest => some (.colon, rest)
  | ',' :: rest => some (.comma, rest)
  | 'n' :: 'u' :: 'l' :: 'l' :: rest => some (.null, rest)
  | 't' :: 'r' :: 'u' :: 'e' :: rest => some (.bool true, rest)
  | 'f' :: 'a' :: 'l' :: 's' :: 'e' :: rest => some (.bool false, rest)
  | '"' :: rest =>
      (Text.pieces? rest).map fun (ps, rest) =>
        (.text ((Text.assemble ps).map String.ofList), rest)
  | cs => (Numeral.scan? cs).map fun (literal, rest) => (.number literal, rest)

/-- What follows a token is shorter than the text. -/
theorem length_lt_of_next? {cs rest : List Char} {t : Token} (h : next? cs = some (t, rest)) :
    rest.length < cs.length := by
  unfold next? at h
  split at h
  case h_1 => simp at h
  case h_11 cs =>
    obtain ⟨⟨ps, rest'⟩, hp, heq⟩ := Option.map_eq_some_iff.1 h
    obtain ⟨_, rfl⟩ := by simpa using heq
    exact Nat.lt_succ_of_le (Text.suffix_of_pieces? hp).length_le
  case h_12 =>
    obtain ⟨⟨literal, rest'⟩, hn, heq⟩ := Option.map_eq_some_iff.1 h
    obtain ⟨_, rfl⟩ := by simpa using heq
    exact Numeral.length_lt_of_scan? hn
  all_goals
    obtain ⟨_, rfl⟩ := by simpa using h
    simp only [List.length_cons]
    omega

def scan? : List Char → Option (List Token)
  | [] => some []
  | c :: cs =>
      if isBlank c then scan? cs
      else
        match _h : next? (c :: cs) with
        | none => none
        | some (t, rest) => (scan? rest).map (t :: ·)
termination_by cs => cs.length
decreasing_by
  · exact Nat.lt_succ_self _
  · exact length_lt_of_next? _h

@[simp] theorem scan?_nil : scan? [] = some [] := by simp [scan?]

/-- A blank at the front is passed over. -/
theorem scan?_cons_of_isBlank {c : Char} (cs : List Char) (h : isBlank c) :
    scan? (c :: cs) = scan? cs := by
  rw [scan?]
  simp [h]

/-- A token at the front is the first token. -/
theorem scan?_of_next? {c : Char} {cs rest : List Char} {t : Token} (hc : isBlank c = false)
    (h : next? (c :: cs) = some (t, rest)) : scan? (c :: cs) = (scan? rest).map (t :: ·) := by
  rw [scan?]
  simp only [hc, Bool.false_eq_true, ↓reduceIte]
  split <;> simp_all

end Token

end Raster.Json
