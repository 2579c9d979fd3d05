import Raster.Json.Text
/-!
# What a literal denotes

A JSON literal denotes a sequence of UTF-16 code units: a character that stands for itself has one
or two of them, and an escape has one. Two literals with the same code units mean the same,
whichever way they are written (`Denotes`), and the text that is meant is the one with these code
units, if there is one.

Reading goes through pieces, and there the two halves of a character are pieces of their own until
they are put together. It loses no code unit on the way (`exists_pieces?`), and no text has the code
units of another (`codeUnits_append_eq_iff`); so the text that is read is the text that is meant
(`assemble_eq_some_iff`).
-/

namespace Raster.Json.Text

/-- The UTF-16 code units of a character: one that is its number, or the two halves of what its
number is beyond the first 65536. -/
def codeUnits (c : Char) : List Nat :=
  if c.toNat < 0x10000 then [c.toNat]
  else [0xd800 + (c.toNat - 0x10000) / 0x400, 0xdc00 + (c.toNat - 0x10000) % 0x400]

/-- The hexadecimal digit of a number below 16, in lower or in upper case. -/
def IsHexDigit (n : Nat) (d : Char) : Prop := d = n.digitChar ∨ d = n.digitChar.toUpper

/-- The letters that may follow a backslash, with the code units they stand for. -/
def escapes : List (Char × Nat) :=
  [('"', 0x22), ('\\', 0x5c), ('/', 0x2f), ('b', 0x08), ('f', 0x0c), ('n', 0x0a), ('r', 0x0d),
    ('t', 0x09)]

/-- What stands between the quotation marks denotes these code units. -/
inductive Denotes : List Char → List Nat → Prop
  | nil : Denotes [] []
  /-- A character that stands for itself. -/
  | plain {c : Char} {cs : List Char} {units : List Nat} (visible : ' ' ≤ c) (quote : c ≠ '"')
      (backslash : c ≠ '\\') (rest : Denotes cs units) : Denotes (c :: cs) (codeUnits c ++ units)
  /-- A letter after a backslash. -/
  | escape {letter : Char} {unit : Nat} {cs : List Char} {units : List Nat}
      (known : (letter, unit) ∈ escapes) (rest : Denotes cs units) :
      Denotes ('\\' :: letter :: cs) (unit :: units)
  /-- A code unit by its four digits. -/
  | unit {n : Nat} {a b c d : Char} {cs : List Char} {units : List Nat} (small : n < 0x10000)
      (ha : IsHexDigit (n / 0x1000) a) (hb : IsHexDigit (n / 0x100 % 0x10) b)
      (hc : IsHexDigit (n / 0x10 % 0x10) c) (hd : IsHexDigit (n % 0x10) d)
      (rest : Denotes cs units) : Denotes ('\\' :: 'u' :: a :: b :: c :: d :: cs) (n :: units)

theorem toNat_ofNat {n : Nat} (valid : n.isValidChar) : (Char.ofNat n).toNat = n := by
  rw [Char.ofNat, dif_pos valid]
  rfl

/-- The code units of a character are its number alone, which is not that of a half, or two
halves. -/
theorem codeUnits_cases (c : Char) :
    (codeUnits c = [c.toNat] ∧ (c.toNat < 0xd800 ∨ 0xdfff < c.toNat)) ∨
    ∃ high < 0x400, ∃ low < 0x400, codeUnits c = [0xd800 + high, 0xdc00 + low] ∧
      c.toNat = 0x10000 + 0x400 * high + low := by
  by_cases small : c.toNat < 0x10000
  · refine .inl ⟨if_pos small, ?_⟩
    rcases c.valid with low | ⟨high, -⟩
    · exact .inl low
    · exact .inr high
  · have bound : c.toNat < 0x110000 := by
      rcases c.valid with low | ⟨-, high⟩
      · exact Nat.lt_trans low (by decide)
      · exact high
    refine .inr ⟨(c.toNat - 0x10000) / 0x400, ?_, (c.toNat - 0x10000) % 0x400, ?_, if_neg small, ?_⟩
    · omega
    · omega
    · omega

/-! ### Pieces and their code units -/

namespace Piece

/-- The code units of a piece. -/
def units : Piece → List Nat
  | .char c => codeUnits c
  | .leading bits => [0xd800 + bits]
  | .trailing bits => [0xdc00 + bits]

/-- Halves have ten bits. -/
def Proper : Piece → Prop
  | .char _ => True
  | .leading bits => bits < 0x400
  | .trailing bits => bits < 0x400

/-- A code unit is the only one of its piece. -/
theorem units_ofCodeUnit {n : Nat} (small : n < 0x10000) :
    (ofCodeUnit n).units = [n] ∧ (ofCodeUnit n).Proper := by
  have single (valid : n.isValidChar) : codeUnits (Char.ofNat n) = [n] := by
    rw [codeUnits, toNat_ofNat valid, if_pos small]
  unfold ofCodeUnit
  split
  · next low => exact ⟨single (.inl low), trivial⟩
  · split
    · next first =>
        exact ⟨congrArg ([·]) (Nat.add_sub_cancel' (by omega)), by simp only [Proper]; omega⟩
    · split
      · next second =>
          exact ⟨congrArg ([·]) (Nat.add_sub_cancel' (by omega)), by simp only [Proper]; omega⟩
      · exact ⟨single (.inr ⟨by omega, by omega⟩), trivial⟩

end Piece

theorem hexDigit?_of_isHexDigit {n : Nat} {d : Char} (small : n < 16) (h : IsHexDigit n d) :
    hexDigit? d = some n := by
  have all : ∀ n < 16, hexDigit? n.digitChar = some n ∧ hexDigit? n.digitChar.toUpper = some n := by
    decide
  rcases h with rfl | rfl
  · exact (all n small).1
  · exact (all n small).2

theorem codeUnit?_of_isHexDigit {n : Nat} {a b c d : Char} (small : n < 0x10000)
    (ha : IsHexDigit (n / 0x1000) a) (hb : IsHexDigit (n / 0x100 % 0x10) b)
    (hc : IsHexDigit (n / 0x10 % 0x10) c) (hd : IsHexDigit (n % 0x10) d) :
    codeUnit? a b c d = some n := by
  have value : 16 * (16 * (16 * (16 * 0 + n / 0x1000) + n / 0x100 % 0x10) + n / 0x10 % 0x10) +
      n % 0x10 = n := by omega
  simp only [codeUnit?, List.mapM_cons, List.mapM_nil,
    hexDigit?_of_isHexDigit (by omega) ha, hexDigit?_of_isHexDigit (Nat.mod_lt _ (by decide)) hb,
    hexDigit?_of_isHexDigit (Nat.mod_lt _ (by decide)) hc,
    hexDigit?_of_isHexDigit (Nat.mod_lt _ (by decide)) hd, Option.pure_def, Option.bind_eq_bind,
    Option.bind_some, List.foldl_cons, List.foldl_nil, value]

theorem escaped?_of_mem {letter : Char} {unit : Nat} (known : (letter, unit) ∈ escapes) :
    letter ≠ 'u' ∧ ∃ c, escaped? letter = some c ∧ codeUnits c = [unit] := by
  have all : ∀ p ∈ escapes, p.1 ≠ 'u' ∧ (escaped? p.1).map codeUnits = some [p.2] := by decide
  obtain ⟨other, h⟩ := all _ known
  exact ⟨other, Option.map_eq_some_iff.mp h⟩

/-- A literal is read up to its closing quotation mark, and none of its code units is lost. -/
theorem exists_pieces? {cs : List Char} {units : List Nat} (h : Denotes cs units)
    (rest : List Char) :
    ∃ ps, pieces? (cs ++ '"' :: rest) = some (ps, rest) ∧ (∀ p ∈ ps, p.Proper) ∧
      ps.flatMap Piece.units = units := by
  induction h with
  | nil => exact ⟨[], by simp [pieces?], by simp, rfl⟩
  | @plain c cs units visible quote backslash _ ih =>
      obtain ⟨ps, read, proper, rfl⟩ := ih
      refine ⟨.char c :: ps, ?_, ?_, rfl⟩
      · rw [List.cons_append, pieces?]
        · simp [Char.not_lt.mpr visible, read]
        all_goals simp_all
      · exact List.forall_mem_cons.mpr ⟨trivial, proper⟩
  | @escape letter unit cs units known _ ih =>
      obtain ⟨ps, read, proper, rfl⟩ := ih
      obtain ⟨other, c, escaped, single⟩ := escaped?_of_mem known
      refine ⟨.char c :: ps, ?_, ?_, ?_⟩
      · rw [List.cons_append, List.cons_append, pieces?]
        · simp [escaped, read]
        all_goals simp_all
      · exact List.forall_mem_cons.mpr ⟨trivial, proper⟩
      · rw [List.flatMap_cons, Piece.units, single]
        rfl
  | @unit n a b c d cs units small ha hb hc hd _ ih =>
      obtain ⟨ps, read, proper, rfl⟩ := ih
      obtain ⟨single, half⟩ := Piece.units_ofCodeUnit small
      refine ⟨.ofCodeUnit n :: ps, ?_, ?_, ?_⟩
      · simp only [List.cons_append, pieces?]
        simp [codeUnit?_of_isHexDigit small ha hb hc hd, read]
      · exact List.forall_mem_cons.mpr ⟨half, proper⟩
      · rw [List.flatMap_cons, single]
        rfl

/-! ### Texts and their code units -/

/-- The code units of a character are not those that other characters start with. -/
theorem codeUnits_append_inj {c d : Char} {us vs : List Nat}
    (h : codeUnits c ++ us = codeUnits d ++ vs) : c = d ∧ us = vs := by
  rcases codeUnits_cases c with ⟨hc, _⟩ | ⟨high, _, low, _, hc, number⟩ <;>
    rcases codeUnits_cases d with ⟨hd, _⟩ | ⟨high', _, low', _, hd, number'⟩ <;>
    simp only [hc, hd, List.cons_append, List.nil_append, List.cons.injEq] at h
  · exact ⟨Char.toNat_inj.mp h.1, h.2⟩
  · omega
  · omega
  · exact ⟨Char.toNat_inj.mp (by omega), h.2.2⟩

/-- So a text with code units that start with those of a character starts with the character. -/
theorem codeUnits_append_eq_iff {c : Char} {units : List Nat} {s : List Char} :
    codeUnits c ++ units = s.flatMap codeUnits ↔
      ∃ s', s = c :: s' ∧ units = s'.flatMap codeUnits := by
  constructor
  · intro h
    cases s with
    | nil =>
        rcases codeUnits_cases c with ⟨hc, -⟩ | ⟨_, -, _, -, hc, -⟩ <;> simp [hc] at h
    | cons d s' =>
        obtain ⟨rfl, later⟩ := codeUnits_append_inj (h.trans List.flatMap_cons)
        exact ⟨s', rfl, later⟩
  · rintro ⟨s', rfl, rfl⟩
    exact List.flatMap_cons.symm

/-- No text has the code units of another. -/
theorem flatMap_codeUnits_inj {s s' : List Char} :
    s.flatMap codeUnits = s'.flatMap codeUnits ↔ s = s' := by
  constructor
  · intro h
    induction s generalizing s' with
    | nil =>
        cases s' with
        | nil => rfl
        | cons d s' =>
            rcases codeUnits_cases d with ⟨hd, -⟩ | ⟨_, -, _, -, hd, -⟩ <;> simp [hd] at h
    | cons c s ih =>
        rw [List.flatMap_cons] at h
        obtain ⟨s'', rfl, later⟩ := codeUnits_append_eq_iff.mp h
        rw [ih later]
  · exact congrArg _

/-- Characters that may stand for themselves denote themselves. -/
theorem denotes_self {cs : List Char} (plain : ∀ c ∈ cs, ' ' ≤ c ∧ c ≠ '"' ∧ c ≠ '\\') :
    Denotes cs (cs.flatMap codeUnits) := by
  induction cs with
  | nil => exact .nil
  | cons c cs ih =>
      obtain ⟨⟨visible, quote, backslash⟩, later⟩ := List.forall_mem_cons.mp plain
      exact .plain visible quote backslash (ih later)

/-- Two halves are a character. -/
theorem codeUnits_ofNat_of_halves {high low : Nat} (hhigh : high < 0x400) (hlow : low < 0x400) :
    codeUnits (Char.ofNat (0x10000 + 0x400 * high + low)) = [0xd800 + high, 0xdc00 + low] := by
  have number : (Char.ofNat (0x10000 + 0x400 * high + low)).toNat =
      0x10000 + 0x400 * high + low := toNat_ofNat (.inr ⟨by omega, by omega⟩)
  have low' : (0x10000 + 0x400 * high + low - 0x10000) % 0x400 = low := by omega
  have high' : (0x10000 + 0x400 * high + low - 0x10000) / 0x400 = high := by omega
  rw [codeUnits, number, if_neg (by omega), high', low']

/-- A first half in a text has its second half behind it. -/
theorem exists_of_leading {bits : Nat} {units : List Nat} {s : List Char} (small : bits < 0x400)
    (h : (0xd800 + bits) :: units = s.flatMap codeUnits) :
    ∃ low < 0x400, ∃ rest, units = (0xdc00 + low) :: rest := by
  cases s with
  | nil => cases h
  | cons d s =>
      rw [List.flatMap_cons] at h
      rcases codeUnits_cases d with ⟨hd, _⟩ | ⟨high, _, low, hlow, hd, _⟩ <;>
        simp only [hd, List.cons_append, List.nil_append, List.cons.injEq] at h
      · omega
      · exact ⟨low, hlow, _, h.2⟩

/-- A second half does not come first. -/
theorem ne_of_trailing {bits : Nat} {units : List Nat} {s : List Char} (small : bits < 0x400) :
    (0xdc00 + bits) :: units ≠ s.flatMap codeUnits := by
  intro h
  cases s with
  | nil => cases h
  | cons d s =>
      rw [List.flatMap_cons] at h
      rcases codeUnits_cases d with ⟨hd, _⟩ | ⟨high, _, low, _, hd, _⟩ <;>
        simp only [hd, List.cons_append, List.nil_append, List.cons.injEq] at h <;> omega

/-- Pieces that start with a second half have it as their first piece. -/
theorem exists_of_units_trailing {ps : List Piece} (proper : ∀ p ∈ ps, p.Proper) {low : Nat}
    (small : low < 0x400) {rest : List Nat} (h : ps.flatMap Piece.units = (0xdc00 + low) :: rest) :
    ∃ ps', ps = .trailing low :: ps' := by
  cases ps with
  | nil => cases h
  | cons p ps =>
      rw [List.flatMap_cons] at h
      cases p with
      | char c =>
          rcases codeUnits_cases c with ⟨hc, _⟩ | ⟨high, _, low', _, hc, _⟩ <;>
            simp only [Piece.units, hc, List.cons_append, List.nil_append, List.cons.injEq] at h <;>
            omega
      | leading bits =>
          have half : bits < 0x400 := proper _ List.mem_cons_self
          simp only [Piece.units, List.cons_append, List.nil_append, List.cons.injEq] at h
          omega
      | trailing bits =>
          simp only [Piece.units, List.cons_append, List.nil_append, List.cons.injEq] at h
          obtain rfl : bits = low := by omega
          exact ⟨ps, rfl⟩

/-- A character in front of what the pieces are put together to. -/
theorem map_assemble_eq_some_iff {c : Char} {ps : List Piece}
    (later : ∀ s, assemble ps = some s ↔ ps.flatMap Piece.units = s.flatMap codeUnits)
    {s : List Char} :
    (assemble ps).map (c :: ·) = some s ↔
      codeUnits c ++ ps.flatMap Piece.units = s.flatMap codeUnits := by
  rw [codeUnits_append_eq_iff, Option.map_eq_some_iff]
  constructor
  · rintro ⟨s', assembled, rfl⟩
    exact ⟨s', rfl, (later s').mp assembled⟩
  · rintro ⟨s', rfl, units⟩
    exact ⟨s', (later s').mpr units, rfl⟩

/-- The text that the pieces are put together to is the one with their code units. -/
theorem assemble_eq_some_iff {ps : List Piece} (proper : ∀ p ∈ ps, p.Proper) {s : List Char} :
    assemble ps = some s ↔ ps.flatMap Piece.units = s.flatMap codeUnits := by
  fun_induction assemble ps generalizing s with
  | case1 =>
      cases s with
      | nil => simp
      | cons d s =>
          rcases codeUnits_cases d with ⟨hd, -⟩ | ⟨_, -, _, -, hd, -⟩ <;> simp [hd]
  | case2 c ps ih =>
      obtain ⟨-, proper⟩ := List.forall_mem_cons.mp proper
      rw [map_assemble_eq_some_iff fun s => ih proper]
      rfl
  | case3 high low ps ih =>
      obtain ⟨hhigh, proper⟩ := List.forall_mem_cons.mp proper
      obtain ⟨hlow, proper⟩ := List.forall_mem_cons.mp proper
      rw [map_assemble_eq_some_iff fun s => ih proper, codeUnits_ofNat_of_halves hhigh hlow]
      rfl
  | case4 bits ps single =>
      obtain ⟨half, proper⟩ := List.forall_mem_cons.mp proper
      refine iff_of_false (by simp) ?_
      intro h
      obtain ⟨low, small, rest, units⟩ := exists_of_leading half h
      obtain ⟨ps', rfl⟩ := exists_of_units_trailing proper small units
      exact single _ _ rfl
  | case5 bits ps =>
      exact iff_of_false (by simp) (ne_of_trailing (proper _ List.mem_cons_self))

/-- A literal is read as the text with its code units, if there is one. -/
theorem exists_pieces?_of_denotes {cs : List Char} {units : List Nat} (h : Denotes cs units)
    (rest : List Char) :
    ∃ ps, pieces? (cs ++ '"' :: rest) = some (ps, rest) ∧
      ∀ s, (assemble ps).map String.ofList = some s ↔ units = s.toList.flatMap codeUnits := by
  obtain ⟨ps, read, proper, rfl⟩ := exists_pieces? h rest
  refine ⟨ps, read, ?_⟩
  intro s
  rw [← assemble_eq_some_iff proper, Option.map_eq_some_iff]
  constructor
  · rintro ⟨cs, assembled, rfl⟩
    rw [assembled, String.toList_ofList]
  · intro assembled
    exact ⟨_, assembled, String.ofList_toList⟩

end Raster.Json.Text
