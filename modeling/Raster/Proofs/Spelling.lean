import Mathlib.Data.List.Chain
import Raster.Json.Basic
import Raster.Proofs.Literals
/-!
# Texts that spell a value

A value has one row of tokens (`Json.tokens`). A token can be spelled in several ways, and any
blanks may stand around it; a text that spells all the tokens of a value in their order, spells the
value (`Json.Spelled`). That is what JSON is, and each such text is read as its value
(`Json.ofText?_of_spelled`).

The proof has a part for each of the three steps of reading.

* A numeral ends where the text goes on with a character that is in no numeral (`Numeral.Ends`).
* A row of tokens is split into them again if no two numerals stand next to each other
  (`Token.scan?_of_rowSpelled`).
* The tokens of a value lead from a state that waits for a value to the one that has it
  (`Json.run?_tokens`). And the reader takes no two numerals in a row, so there are none among them.
-/

namespace Raster.Json

/-! ### Numerals -/

namespace Numeral

/-- One digit or more. -/
def IsDigits (ds : List Char) : Prop := ds ≠ [] ∧ ∀ d ∈ ds, d.isDigit

/-- A zero alone, or digits that do not start with a zero. -/
def IsWhole (cs : List Char) : Prop := cs = ['0'] ∨ (IsDigits cs ∧ cs.head? ≠ some '0')

/-- Nothing, or a point and digits. -/
def IsFraction (cs : List Char) : Prop := cs = [] ∨ ∃ ds, cs = '.' :: ds ∧ IsDigits ds

/-- Nothing, or an `e` and digits, with or without a sign between them. -/
def IsExponent (cs : List Char) : Prop :=
  cs = [] ∨ ∃ e sign ds, cs = e :: (sign ++ ds) ∧ (e = 'e' ∨ e = 'E') ∧
    (sign = [] ∨ sign = ['+'] ∨ sign = ['-']) ∧ IsDigits ds

/-- The four parts of a numeral, one after the other. -/
def IsNumeral (cs : List Char) : Prop :=
  ∃ minus whole fraction exponent, cs = minus ++ (whole ++ (fraction ++ exponent)) ∧
    (minus = [] ∨ minus = ['-']) ∧ IsWhole whole ∧ IsFraction fraction ∧ IsExponent exponent

/-- A text does not start with a digit. -/
def NoDigit (rest : List Char) : Prop := ∀ c, rest.head? = some c → c.isDigit = false

/-- A numeral cannot go on with this character. -/
def Stops (c : Char) : Prop := c.isDigit = false ∧ c ≠ '.' ∧ c ≠ 'e' ∧ c ≠ 'E'

instance (c : Char) : Decidable (Stops c) := inferInstanceAs (Decidable (_ ∧ _))

/-- A numeral cannot go on into this text. -/
def Ends (rest : List Char) : Prop := ∀ c, rest.head? = some c → Stops c

variable {ds cs rest : List Char}

theorem digits?_of_isDigits (digits : IsDigits ds) (stop : NoDigit rest) :
    digits? (ds ++ rest) = some (ds, rest) := by
  have inside : (ds ++ rest).takeWhile Char.isDigit = ds := by
    rw [List.takeWhile_append_of_pos digits.2]
    cases rest with
    | nil => simp
    | cons c rest => simp [stop c rfl]
  have after : (ds ++ rest).dropWhile Char.isDigit = rest := by
    rw [List.dropWhile_append_of_pos digits.2]
    cases rest with
    | nil => simp
    | cons c rest => simp [stop c rfl]
  rw [digits?, inside, after, if_neg digits.1]

theorem whole?_of_isWhole (whole : IsWhole cs) (stop : NoDigit rest) :
    whole? (cs ++ rest) = some (cs, rest) := by
  rcases whole with rfl | ⟨digits, zero⟩
  · rfl
  · rw [← digits?_of_isDigits digits stop]
    cases cs with
    | nil => exact absurd rfl digits.1
    | cons c cs =>
        rw [List.cons_append, whole?]
        rintro _ ⟨⟩
        exact zero rfl

theorem fraction?_of_isFraction (fraction : IsFraction cs) (stop : NoDigit rest)
    (point : rest.head? ≠ some '.') : fraction? (cs ++ rest) = some (cs, rest) := by
  rcases fraction with rfl | ⟨ds, rfl, digits⟩
  · rw [List.nil_append, fraction?]
    rintro _ rfl
    exact point rfl
  · rw [List.cons_append, fraction?, digits?_of_isDigits digits stop, Option.map_some]

theorem exponentSign_append_digits {sign : List Char}
    (signed : sign = [] ∨ sign = ['+'] ∨ sign = ['-']) (digits : IsDigits ds) :
    exponentSign (sign ++ (ds ++ rest)) = (sign, ds ++ rest) := by
  rcases signed with rfl | rfl | rfl
  · -- A digit is no sign.
    cases ds with
    | nil => exact absurd rfl digits.1
    | cons d ds =>
        have digit := digits.2 d List.mem_cons_self
        rw [List.nil_append, List.cons_append, exponentSign]
        · rintro _ ⟨⟩
          exact absurd digit (by decide)
        · rintro _ ⟨⟩
          exact absurd digit (by decide)
  · rfl
  · rfl

theorem exponent?_of_isExponent (exponent : IsExponent cs) (stop : Ends rest) :
    exponent? (cs ++ rest) = some (cs, rest) := by
  rcases exponent with rfl | ⟨e, sign, ds, rfl, he, signed, digits⟩
  · cases rest with
    | nil => rfl
    | cons c rest =>
        obtain ⟨-, -, lower, upper⟩ := stop c rfl
        rw [List.nil_append, exponent?, if_neg (not_or.mpr ⟨lower, upper⟩)]
  · rw [List.cons_append, exponent?, if_pos he, List.append_assoc,
      exponentSign_append_digits signed digits,
      digits?_of_isDigits digits fun c hc => (stop c hc).1]
    rfl

/-- Where an exponent starts or a numeral ends, there is no digit and no point. -/
theorem head?_exponent (exponent : IsExponent cs) (stop : Ends rest) :
    NoDigit (cs ++ rest) ∧ (cs ++ rest).head? ≠ some '.' := by
  rcases exponent with rfl | ⟨e, sign, ds, rfl, he, -, -⟩
  · exact ⟨fun c hc => (stop c hc).1, fun h => (stop _ h).2.1 rfl⟩
  · rcases he with rfl | rfl
    · exact ⟨by rintro _ ⟨⟩; decide, by simp⟩
    · exact ⟨by rintro _ ⟨⟩; decide, by simp⟩

/-- Where a fraction starts, there is no digit. -/
theorem head?_fraction (fraction : IsFraction cs) (stop : NoDigit rest) :
    NoDigit (cs ++ rest) := by
  rcases fraction with rfl | ⟨ds, rfl, -⟩
  · exact stop
  · rintro _ ⟨⟩
    decide

/-- The whole part starts with a digit. -/
theorem exists_of_isWhole (whole : IsWhole cs) : ∃ c cs', cs = c :: cs' ∧ c.isDigit := by
  rcases whole with rfl | ⟨digits, -⟩
  · exact ⟨'0', [], rfl, by decide⟩
  · cases cs with
    | nil => exact absurd rfl digits.1
    | cons c cs' => exact ⟨c, cs', rfl, digits.2 c List.mem_cons_self⟩

theorem sign_append_whole {minus : List Char} (signed : minus = [] ∨ minus = ['-'])
    (whole : IsWhole cs) : sign (minus ++ (cs ++ rest)) = (minus, cs ++ rest) := by
  rcases signed with rfl | rfl
  · obtain ⟨c, cs', rfl, digit⟩ := exists_of_isWhole whole
    rw [List.nil_append, List.cons_append, sign]
    rintro _ ⟨⟩
    exact absurd digit (by decide)
  · rfl

/-- A numeral is read up to its end. -/
theorem scan?_of_isNumeral (numeral : IsNumeral cs) (stop : Ends rest) :
    scan? (cs ++ rest) = some (cs, rest) := by
  obtain ⟨minus, whole, fraction, exponent, rfl, hminus, hwhole, hfraction, hexponent⟩ := numeral
  obtain ⟨noDigit, noPoint⟩ := head?_exponent hexponent stop
  have noDigit' := head?_fraction hfraction noDigit
  simp only [scan?, List.append_assoc, sign_append_whole hminus hwhole,
    whole?_of_isWhole hwhole noDigit',
    fraction?_of_isFraction hfraction noDigit noPoint, exponent?_of_isExponent hexponent stop,
    Option.bind_eq_bind, Option.bind_some, Option.pure_def]

/-- A numeral starts with a minus sign or a digit. -/
theorem exists_of_isNumeral (numeral : IsNumeral cs) :
    ∃ c cs', cs = c :: cs' ∧ (c = '-' ∨ c.isDigit) := by
  obtain ⟨minus, whole, fraction, exponent, rfl, rfl | rfl, hwhole, -, -⟩ := numeral
  · obtain ⟨c, cs', rfl, digit⟩ := exists_of_isWhole hwhole
    exact ⟨c, _, rfl, .inr digit⟩
  · exact ⟨'-', _, rfl, .inl rfl⟩

/-- A positive number does not start with a zero. -/
theorem head?_toDigits {n : Nat} (pos : 0 < n) : (Nat.toDigits 10 n).head? ≠ some '0' := by
  induction n using Nat.strongRecOn with
  | ind n ih =>
      by_cases small : n < 10
      · have digit : ∀ n < 10, 0 < n → n.digitChar ≠ '0' := by decide
        rw [Nat.toDigits_of_lt_base small, List.head?_cons, ne_eq, Option.some.injEq]
        exact digit n small pos
      · rw [Nat.toDigits_of_base_le (by decide) (by omega),
          List.head?_append_of_ne_nil _ Nat.toDigits_ne_nil]
        exact ih (n / 10) (by omega) (by omega)

/-- The digits of a number are a numeral. -/
theorem isNumeral_toDigits (n : Nat) : IsNumeral (Nat.toDigits 10 n) := by
  refine ⟨[], Nat.toDigits 10 n, [], [], by simp, .inl rfl, ?_, .inl rfl, .inl rfl⟩
  cases n with
  | zero => exact .inl rfl
  | succ n =>
      refine .inr ⟨⟨Nat.toDigits_ne_nil, ?_⟩, head?_toDigits (Nat.succ_pos n)⟩
      intro d mem
      exact Nat.isDigit_of_mem_toDigits (by decide) (by decide) mem

end Numeral

/-! ### Rows of tokens -/

namespace Token

/-- The ways to spell a token. -/
inductive Spelled : Token → List Char → Prop
  | beginObject : Spelled .beginObject ['\x7b']
  | endObject : Spelled .endObject ['\x7d']
  | beginArray : Spelled .beginArray ['[']
  | endArray : Spelled .endArray [']']
  | colon : Spelled .colon [':']
  | comma : Spelled .comma [',']
  | null : Spelled .null ['n', 'u', 'l', 'l']
  | true : Spelled (.bool .true) ['t', 'r', 'u', 'e']
  | false : Spelled (.bool .false) ['f', 'a', 'l', 's', 'e']
  | number {literal : List Char} (numeral : Numeral.IsNumeral literal) :
      Spelled (.number literal) literal
  /-- The text that is meant has the code units of the literal, and if none has, none is meant. -/
  | text {cs : List Char} {units : List Nat} {content : Option String}
      (denotes : Text.Denotes cs units)
      (meant : ∀ s, content = some s ↔ units = s.toList.flatMap Text.codeUnits) :
      Spelled (.text content) ('"' :: (cs ++ ['"']))

/-- Blanks, tabs and line ends. -/
def AreBlanks (cs : List Char) : Prop := ∀ c ∈ cs, c = ' ' ∨ c = '\t' ∨ c = '\n' ∨ c = '\r'

instance (cs : List Char) : Decidable (AreBlanks cs) := List.decidableBAll _ cs

/-- Spellings of tokens in their order, with blanks around them. -/
inductive RowSpelled : List Token → List Char → Prop
  | nil {blanks : List Char} (blank : AreBlanks blanks) : RowSpelled [] blanks
  | cons {t : Token} {ts : List Token} {blanks word cs : List Char} (blank : AreBlanks blanks)
      (first : t.Spelled word) (rest : RowSpelled ts cs) :
      RowSpelled (t :: ts) (blanks ++ (word ++ cs))

def IsNumber (t : Token) : Prop := ∃ literal, t = .number literal

/-- No two numerals stand next to each other. -/
def Apart (ts : List Token) : Prop := ts.IsChain fun t u => t.IsNumber → ¬ u.IsNumber

variable {t : Token} {ts : List Token} {cs word rest : List Char}

/-- A token is read up to its end, if it is clear where that is. -/
theorem next?_of_spelled (spelled : t.Spelled word) (stop : t.IsNumber → Numeral.Ends rest) :
    next? (word ++ rest) = some (t, rest) := by
  cases spelled with
  | number numeral =>
      have read := Numeral.scan?_of_isNumeral numeral (stop ⟨_, rfl⟩)
      obtain ⟨c, cs, rfl, first⟩ := Numeral.exists_of_isNumeral numeral
      rw [List.cons_append] at read ⊢
      rw [next?, read]
      · rfl
      · exact List.cons_ne_nil _ _
      all_goals
        intro _ h
        obtain rfl := (List.cons.inj h).1
        exact absurd first (by decide)
  | @text cs units content denotes meant =>
      obtain ⟨ps, read, assembled⟩ := Text.exists_pieces?_of_denotes denotes rest
      have same : (Text.assemble ps).map String.ofList = content := by
        refine Option.ext ?_
        intro s
        rw [assembled, meant]
      rw [List.cons_append, List.append_assoc, List.singleton_append, next?, read]
      exact congrArg (fun content => some (Token.text content, rest)) same
  | _ => rfl

/-- A text is spelled by each literal that denotes its code units. -/
theorem spelled_text {s : String} {cs : List Char}
    (denotes : Text.Denotes cs (s.toList.flatMap Text.codeUnits)) :
    Spelled (.text (some s)) ('"' :: (cs ++ ['"'])) := by
  refine .text denotes ?_
  intro s'
  rw [Text.flatMap_codeUnits_inj, String.toList_inj, Option.some.injEq]

/-- No token starts with a blank, and a numeral alone starts with what another could go on with. -/
theorem exists_of_spelled (spelled : t.Spelled word) :
    ∃ c cs, word = c :: cs ∧ isBlank c = .false ∧ (t.IsNumber ∨ Numeral.Stops c) := by
  cases spelled with
  | number numeral =>
      obtain ⟨c, cs, rfl, first⟩ := Numeral.exists_of_isNumeral numeral
      refine ⟨c, cs, rfl, ?_, .inl ⟨_, rfl⟩⟩
      refine Bool.eq_false_iff.mpr ?_
      intro blank
      simp only [isBlank, Bool.or_eq_true, beq_iff_eq] at blank
      rcases blank with ((rfl | rfl) | rfl) | rfl <;> exact absurd first (by decide)
  | _ => exact ⟨_, _, rfl, by decide, .inr (by decide)⟩

theorem isBlank_of_mem {c : Char} {blanks : List Char} (blank : AreBlanks blanks)
    (mem : c ∈ blanks) : isBlank c ∧ Numeral.Stops c := by
  rcases blank c mem with rfl | rfl | rfl | rfl <;> decide

/-- A numeral ends before blanks and before a token that is no numeral. -/
theorem ends_of_rowSpelled (spelled : RowSpelled ts cs)
    (other : ∀ t, ts.head? = some t → ¬ t.IsNumber) : Numeral.Ends cs := by
  intro c hc
  cases spelled with
  | nil blank => exact (isBlank_of_mem blank (List.mem_of_head? hc)).2
  | @cons t ts blanks word cs blank first rest =>
      cases blanks with
      | cons b blanks =>
          obtain rfl : b = c := Option.some.inj hc
          exact (isBlank_of_mem blank List.mem_cons_self).2
      | nil =>
          obtain ⟨c', cs', rfl, -, number | stops⟩ := exists_of_spelled first
          · exact absurd number (other t rfl)
          · obtain rfl : c' = c := Option.some.inj hc
            exact stops

theorem scan?_append_blanks {blanks : List Char} (blank : AreBlanks blanks) :
    scan? (blanks ++ rest) = scan? rest := by
  induction blanks with
  | nil => rfl
  | cons c blanks ih =>
      have later : AreBlanks blanks := fun c mem => blank c (List.mem_cons_of_mem _ mem)
      rw [List.cons_append, scan?_cons_of_isBlank _ (isBlank_of_mem blank List.mem_cons_self).1,
        ih later]

/-- A text that spells a row of tokens is split into them. -/
theorem scan?_of_rowSpelled (spelled : RowSpelled ts cs) (apart : Apart ts) :
    scan? cs = some ts := by
  induction spelled with
  | @nil blanks blank => rw [← List.append_nil blanks, scan?_append_blanks blank, scan?_nil]
  | @cons t ts blanks word cs blank first rest ih =>
      obtain ⟨next, apart⟩ := List.isChain_cons.mp apart
      have stop (number : t.IsNumber) : Numeral.Ends cs :=
        ends_of_rowSpelled rest fun u hu => next u hu number
      have read := next?_of_spelled first stop
      obtain ⟨c, cs', rfl, visible, -⟩ := exists_of_spelled first
      rw [List.cons_append] at read
      rw [scan?_append_blanks blank, List.cons_append, scan?_of_next? visible read, ih apart,
        Option.map_some]

end Token

/-! ### The tokens of a value -/

/-- Rows with commas between them, one after the other. -/
def commaSeparated : List (List Token) → List Token
  | [] => []
  | row :: rows => row ++ rows.flatMap (.comma :: ·)

mutual
/-- The tokens of a value, in their order. -/
def tokens : Json → List Token
  | .null => [.null]
  | .bool b => [.bool b]
  | .number literal => [.number literal]
  | .text content => [.text content]
  | .array items => .beginArray :: (commaSeparated (itemTokens items) ++ [.endArray])
  | .object members => .beginObject :: (commaSeparated (memberTokens members) ++ [.endObject])
def itemTokens : List Json → List (List Token)
  | [] => []
  | v :: vs => v.tokens :: itemTokens vs
def memberTokens : List (Option String × Json) → List (List Token)
  | [] => []
  | (key, v) :: ms => (.text key :: .colon :: v.tokens) :: memberTokens ms
end

/-- A text spells the value: each of its tokens, with blanks around them. -/
def Spelled (v : Json) (text : String) : Prop := Token.RowSpelled v.tokens text.toList

/-! ### Reading the tokens of a value -/

/-- Take tokens one after the other. -/
def State.run? (s : State) (ts : List Token) : Option State := ts.foldlM State.step? s

theorem State.run?_cons (s : State) (t : Token) (ts : List Token) :
    s.run? (t :: ts) = (s.step? t).bind (·.run? ts) := List.foldlM_cons

variable {v : Json} {s s' : State} {ts : List Token}

theorem exists_tokens (v : Json) : ∃ t ts, v.tokens = t :: ts ∧ t ≠ .endArray := by
  cases v with
  | null => exact ⟨_, _, rfl, nofun⟩
  | bool b => exact ⟨_, _, rfl, nofun⟩
  | number literal => exact ⟨_, _, rfl, nofun⟩
  | text content => exact ⟨_, _, rfl, nofun⟩
  | array items => exact ⟨_, _, rfl, nofun⟩
  | object members => exact ⟨_, _, rfl, nofun⟩

/-- Where an array may still end, a value is read as it is where it must come. -/
theorem run?_firstItem (v : Json) (stack : List Frame) (rest : List Token) :
    (State.firstItem stack).run? (v.tokens ++ rest) =
      (State.value (.array [] :: stack)).run? (v.tokens ++ rest) := by
  obtain ⟨t, ts, tokens, other⟩ := exists_tokens v
  have same : State.step? (.firstItem stack) t = State.step? (.value (.array [] :: stack)) t := by
    cases t with
    | endArray => exact absurd rfl other
    | _ => rfl
  rw [tokens, List.cons_append, State.run?_cons, State.run?_cons, same]

mutual
/-- Where a value must come, its tokens lead to where it is complete. -/
theorem run?_tokens : ∀ (v : Json) (stack : List Frame) (rest : List Token),
    (State.value stack).run? (v.tokens ++ rest) = (State.complete v stack).run? rest
  | .null, _, _ => rfl
  | .bool _, _, _ => rfl
  | .number _, _, _ => rfl
  | .text _, _, _ => rfl
  | .array [], _, _ => rfl
  | .array (v :: vs), stack, rest => by
      have row : (Json.array (v :: vs)).tokens ++ rest = .beginArray ::
          (v.tokens ++ ((itemTokens vs).flatMap (.comma :: ·) ++ .endArray :: rest)) := by
        simp [tokens, itemTokens, commaSeparated]
      calc (State.value stack).run? ((Json.array (v :: vs)).tokens ++ rest)
        _ = (State.firstItem stack).run?
              (v.tokens ++ ((itemTokens vs).flatMap (.comma :: ·) ++ .endArray :: rest)) := by
            rw [row, State.run?_cons]; rfl
        _ = (State.complete v (.array [] :: stack)).run?
              ((itemTokens vs).flatMap (.comma :: ·) ++ .endArray :: rest) := by
            rw [run?_firstItem, run?_tokens]
        _ = (State.complete (.array (v :: vs)) stack).run? rest := by rw [run?_items]; rfl
  | .object [], _, _ => rfl
  | .object ((key, v) :: ms), stack, rest => by
      have row : (Json.object ((key, v) :: ms)).tokens ++ rest =
          .beginObject :: .text key :: .colon ::
            (v.tokens ++ ((memberTokens ms).flatMap (.comma :: ·) ++ .endObject :: rest)) := by
        simp [tokens, memberTokens, commaSeparated]
      calc (State.value stack).run? ((Json.object ((key, v) :: ms)).tokens ++ rest)
        _ = (State.value (.object [] key :: stack)).run?
              (v.tokens ++ ((memberTokens ms).flatMap (.comma :: ·) ++ .endObject :: rest)) := by
            rw [row, State.run?_cons]; rfl
        _ = (State.complete v (.object [] key :: stack)).run?
              ((memberTokens ms).flatMap (.comma :: ·) ++ .endObject :: rest) := by rw [run?_tokens]
        _ = (State.complete (.object ((key, v) :: ms)) stack).run? rest := by
            rw [run?_members]; rfl
/-- The items behind one that is complete, and the end of their array. -/
theorem run?_items : ∀ (vs : List Json) (v : Json) (done : List Json) (stack : List Frame)
    (rest : List Token),
    (State.complete v (.array done :: stack)).run?
        ((itemTokens vs).flatMap (.comma :: ·) ++ .endArray :: rest) =
      (State.complete (.array ((v :: done).reverse ++ vs)) stack).run? rest
  | [], v, done, stack, rest => by
      rw [List.append_nil]
      rfl
  | w :: vs, v, done, stack, rest => by
      have row : (itemTokens (w :: vs)).flatMap (.comma :: ·) ++ .endArray :: rest = .comma ::
          (w.tokens ++ ((itemTokens vs).flatMap (.comma :: ·) ++ .endArray :: rest)) := by
        simp [itemTokens]
      have items : (w :: v :: done).reverse ++ vs = (v :: done).reverse ++ w :: vs := by simp
      rw [row, State.run?_cons, ← items, ← run?_items vs w (v :: done), ← run?_tokens w]
      rfl
/-- The members behind one that is complete, and the end of their object. -/
theorem run?_members : ∀ (ms : List (Option String × Json)) (key : Option String) (v : Json)
    (done : List (Option String × Json)) (stack : List Frame) (rest : List Token),
    (State.complete v (.object done key :: stack)).run?
        ((memberTokens ms).flatMap (.comma :: ·) ++ .endObject :: rest) =
      (State.complete (.object (((key, v) :: done).reverse ++ ms)) stack).run? rest
  | [], key, v, done, stack, rest => by
      rw [List.append_nil]
      rfl
  | (next, w) :: ms, key, v, done, stack, rest => by
      have row : (memberTokens ((next, w) :: ms)).flatMap (.comma :: ·) ++ .endObject :: rest =
          .comma :: .text next :: .colon ::
            (w.tokens ++ ((memberTokens ms).flatMap (.comma :: ·) ++ .endObject :: rest)) := by
        simp [memberTokens]
      have members : ((next, w) :: (key, v) :: done).reverse ++ ms =
          ((key, v) :: done).reverse ++ (next, w) :: ms := by simp
      rw [row, State.run?_cons, ← members, ← run?_members ms next w ((key, v) :: done),
        ← run?_tokens w]
      rfl
end

/-- A numeral completes a value, and behind that there is no other. -/
theorem step?_number {literal : List Char} (step : s.step? (.number literal) = some s')
    {literal' : List Char} : s'.step? (.number literal') = none := by
  have complete : ∃ stack, s' = .complete (.number literal) stack := by
    cases s with
    | value stack => exact ⟨stack, (Option.some.inj step).symm⟩
    | firstItem stack => exact ⟨_, (Option.some.inj step).symm⟩
    | complete v stack =>
        rcases stack with _ | ⟨_ | _, _⟩ <;> cases step
    | _ => cases step
  obtain ⟨_ | ⟨_ | _, _⟩, rfl⟩ := complete <;> rfl

/-- What is read to its end has no two numerals next to each other. -/
theorem apart_of_run? (run : s.run? ts = some s') : Token.Apart ts := by
  induction ts generalizing s with
  | nil => exact List.isChain_nil
  | cons t ts ih =>
      rw [State.run?_cons] at run
      obtain ⟨s₁, first, later⟩ := Option.bind_eq_some_iff.mp run
      refine List.isChain_cons.mpr ⟨?_, ih later⟩
      rintro u next ⟨literal, rfl⟩ ⟨literal', rfl⟩
      obtain ⟨ts', rfl⟩ : ∃ ts', ts = .number literal' :: ts' := List.head?_eq_some_iff.mp next
      rw [State.run?_cons, step?_number first] at later
      cases later

/-- A text that spells a value is read as this value. -/
theorem ofText?_of_spelled {text : String} (spelled : v.Spelled text) : ofText? text = some v := by
  have run : (State.value []).run? v.tokens = some (.complete v []) := by
    have run := run?_tokens v [] []
    rwa [List.append_nil] at run
  have split := Token.scan?_of_rowSpelled spelled (apart_of_run? run)
  rw [State.run?] at run
  rw [ofText?, split, Option.bind_some, ofTokens?, run]

end Raster.Json
