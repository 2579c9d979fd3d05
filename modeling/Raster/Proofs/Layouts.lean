import Raster.Json.Layout
import Raster.Proofs.Spelling
/-!
# Texts that are laid out

A value that is written to a text is read from it again, wherever the lines end
(`Json.ofText?_indented`). That is not true of all values: a number may be no numeral, and a string
may denote no text. It is true of those that can be written (`Json.Writable`).

Each part of the layout spells the tokens that it is for: an escape spells its character, a
container spells its brackets and the commas between its parts.
-/

namespace Raster.Json

/-- A character is denoted by what is written for it. -/
theorem Text.denotes_escape (c : Char) {cs : List Char} {units : List Nat}
    (rest : Denotes cs units) : Denotes (Layout.escape c ++ cs) (codeUnits c ++ units) := by
  unfold Layout.escape
  split
  · next special =>
      obtain ⟨known, single⟩ : (c, c.toNat) ∈ escapes ∧ codeUnits c = [c.toNat] := by
        rcases special with rfl | rfl <;> decide
      rw [single]
      exact .escape known rest
  · next ordinary =>
      obtain ⟨quote, backslash⟩ := not_or.mp ordinary
      split
      · next control =>
          have small : c.toNat < 0x20 := control
          have single : codeUnits c = [c.toNat] := if_pos (by omega)
          have high : '0' = (c.toNat / 0x1000).digitChar := by
            rw [Nat.div_eq_of_lt (by omega)]
            rfl
          have low : '0' = (c.toNat / 0x100 % 0x10).digitChar := by
            rw [Nat.div_eq_of_lt (by omega)]
            rfl
          have digit : c.toNat / 16 = c.toNat / 0x10 % 0x10 := by omega
          rw [single]
          exact .unit (by omega) (.inl high) (.inl low) (.inl (congrArg _ digit)) (.inl rfl) rest
      · next visible => exact .plain (Char.not_lt.mp visible) quote backslash rest

namespace Token

variable {t : Token} {ts ts' : List Token} {cs cs' blanks word : List Char}

theorem spelled_literal (s : String) :
    Spelled (.text (some s)) (Layout.literal (some s)).toList := by
  have denotes (cs : List Char) :
      Text.Denotes (cs.flatMap Layout.escape) (cs.flatMap Text.codeUnits) := by
    induction cs with
    | nil => exact .nil
    | cons c cs ih => exact Text.denotes_escape c ih
  have literal : (Layout.literal (some s)).toList =
      '"' :: (s.toList.flatMap Layout.escape ++ ['"']) := by
    simp [Layout.literal]
  rw [literal]
  exact spelled_text (denotes s.toList)

/-- Blanks may be added in front of a row. -/
theorem RowSpelled.blanks_append (blank : AreBlanks blanks) (row : RowSpelled ts cs) :
    RowSpelled ts (blanks ++ cs) := by
  have both {more : List Char} (blank' : AreBlanks more) : AreBlanks (blanks ++ more) :=
    List.forall_mem_append.mpr ⟨blank, blank'⟩
  cases row with
  | nil blank' => exact .nil (both blank')
  | cons blank' first rest =>
      rw [← List.append_assoc]
      exact .cons (both blank') first rest

/-- One row after the other. -/
theorem RowSpelled.append (row : RowSpelled ts cs) (row' : RowSpelled ts' cs') :
    RowSpelled (ts ++ ts') (cs ++ cs') := by
  induction row with
  | nil blank => exact row'.blanks_append blank
  | cons blank first _ ih =>
      rw [List.append_assoc, List.append_assoc]
      exact .cons blank first ih

theorem RowSpelled.single (spelled : t.Spelled word) : RowSpelled [t] word := by
  have none : AreBlanks [] := nofun
  have row := RowSpelled.cons none spelled (.nil none)
  rwa [List.append_nil] at row

/-- The end of a line and the indentation of the next are blanks. -/
theorem areBlanks_newline (depth : Nat) : AreBlanks (Layout.newline depth).toList := by
  have blank : AreBlanks [' '] := by decide
  have lineEnd : AreBlanks ['\n'] := by decide
  have indentation (n : Nat) : AreBlanks ("".pushn ' ' n).toList := by
    induction n with
    | zero => exact nofun
    | succ n ih =>
        have last : ("".pushn ' ' (n + 1)).toList = ("".pushn ' ' n).toList ++ [' '] :=
          String.toList_push ' '
        rw [last]
        exact List.forall_mem_append.mpr ⟨ih, blank⟩
  rw [Layout.newline, String.toList_append]
  exact List.forall_mem_append.mpr ⟨lineEnd, indentation _⟩

end Token

/-! ### Containers -/

/-- Parts of a container, each of which spells a row. -/
def PartsSpelled (rows : List (List Token)) (parts : List String) : Prop :=
  List.Forall₂ (fun row part => Token.RowSpelled row part.toList) rows parts

variable {rows : List (List Token)} {parts : List String}

theorem rowSpelled_intercalate (depth : Nat) (spelled : PartsSpelled rows parts) :
    Token.RowSpelled (commaSeparated rows)
      (("," ++ Layout.newline depth).intercalate parts).toList := by
  have comma : Token.RowSpelled [.comma] ("," ++ Layout.newline depth).toList := by
    rw [String.toList_append]
    exact (Token.RowSpelled.single .comma).append (.nil (Token.areBlanks_newline depth))
  induction spelled with
  | nil => exact .nil nofun
  | @cons row part rows parts first rest ih =>
      cases rest with
      | nil => simpa [commaSeparated] using first
      | cons second rest =>
          rw [String.intercalate_cons_cons, String.toList_append, String.toList_append]
          have row := (first.append comma).append ih
          simpa [commaSeparated] using row

theorem rowSpelled_container {opening closing : Token} {first last : String} (depth : Nat)
    (start : opening.Spelled first.toList) (stop : closing.Spelled last.toList)
    (spelled : PartsSpelled rows parts) :
    Token.RowSpelled (opening :: (commaSeparated rows ++ [closing]))
      (Layout.container first last depth parts).toList := by
  have start := Token.RowSpelled.single start
  have stop := Token.RowSpelled.single stop
  unfold Layout.container
  split
  · next empty =>
      obtain rfl := List.isEmpty_iff.mp empty
      cases spelled
      rw [String.toList_append]
      exact start.append stop
  · simp only [String.toList_append]
    have inside := (start.append ((rowSpelled_intercalate (depth + 1) spelled).blanks_append
      (Token.areBlanks_newline (depth + 1)))).append (stop.blanks_append
        (Token.areBlanks_newline depth))
    simpa using inside

/-! ### Values -/

/-- A value that can be written: its numbers are numerals and its strings denote texts. -/
inductive Writable : Json → Prop
  | null : Writable .null
  | bool (b : Bool) : Writable (.bool b)
  | number {literal : List Char} (numeral : Numeral.IsNumeral literal) : Writable (.number literal)
  | text (s : String) : Writable (.text (some s))
  | array {items : List Json} (all : ∀ v ∈ items, Writable v) : Writable (.array items)
  | object {members : List (String × Json)} (all : ∀ m ∈ members, Writable m.2) :
      Writable (ofMembers members)

theorem partsSpelled_items {depth : Nat} {items : List Json}
    (spelled : ∀ v ∈ items, Token.RowSpelled v.tokens (Layout.value depth v).toList) :
    PartsSpelled (itemTokens items) (Layout.items depth items) := by
  induction items with
  | nil => exact .nil
  | cons v items ih =>
      obtain ⟨first, later⟩ := List.forall_mem_cons.mp spelled
      exact .cons first (ih later)

theorem partsSpelled_members {depth : Nat} {members : List (String × Json)}
    (spelled : ∀ m ∈ members, Token.RowSpelled m.2.tokens (Layout.value depth m.2).toList) :
    PartsSpelled (memberTokens (members.map fun (key, v) => (some key, v)))
      (Layout.members depth (members.map fun (key, v) => (some key, v))) := by
  induction members with
  | nil => exact .nil
  | cons m members ih =>
      obtain ⟨first, later⟩ := List.forall_mem_cons.mp spelled
      refine .cons ?_ (ih later)
      have colon : Token.RowSpelled [.colon] [':', ' '] :=
        (Token.RowSpelled.single .colon).append (.nil (by decide))
      have key := Token.RowSpelled.single (Token.spelled_literal m.1)
      simpa using (key.append colon).append first

/-- The layout of a value spells it. -/
theorem spelled_indented {v : Json} (writable : v.Writable) : v.Spelled v.indented := by
  have anywhere (depth : Nat) : Token.RowSpelled v.tokens (Layout.value depth v).toList := by
    induction writable generalizing depth with
    | null =>
        rw [Layout.value]
        exact .single .null
    | bool b =>
        rw [Layout.value]
        cases b with
        | true => exact .single .true
        | false => exact .single .false
    | @number literal numeral =>
        rw [Layout.value, String.toList_ofList]
        exact .single (.number numeral)
    | text s => exact .single (Token.spelled_literal s)
    | array all ih =>
        exact rowSpelled_container depth .beginArray .endArray
          (partsSpelled_items fun v mem => ih v mem (depth + 1))
    | object all ih =>
        exact rowSpelled_container depth .beginObject .endObject
          (partsSpelled_members fun m mem => ih m mem (depth + 1))
  exact anywhere 0

/-- What is written is read again. -/
theorem ofText?_indented {v : Json} (writable : v.Writable) : ofText? v.indented = some v :=
  ofText?_of_spelled (spelled_indented writable)

end Raster.Json
