/-!
# String literals

What stands between the quotation marks of a JSON string: characters that stand for
themselves, and escapes. A `\u` escape gives a UTF-16 code unit, and a character beyond
the first 65536 is written as two of them. So reading goes in two steps:

* `pieces?` takes the literal apart, up to its closing quotation mark, and fails only on
  what no literal may hold: a raw control character, an unknown escape, the end of the
  text;
* `assemble` makes the pieces into characters, and fails on half of a pair.

Where only the extent of a literal matters, the first step is enough.
-/

namespace Raster.Json.Text

/-- What one character or escape of a literal stands for. -/
inductive Piece
  /-- A whole character. -/
  | char (c : Char)
  /-- The first half of a pair of code units, by its ten bits. -/
  | leading (bits : Nat)
  /-- The second half of a pair of code units, by its ten bits. -/
  | trailing (bits : Nat)
  deriving DecidableEq

def hexDigit? (c : Char) : Option Nat :=
  if c.isDigit then some (c.toNat - '0'.toNat)
  else if 'a' ≤ c ∧ c ≤ 'f' then some (c.toNat - 'a'.toNat + 10)
  else if 'A' ≤ c ∧ c ≤ 'F' then some (c.toNat - 'A'.toNat + 10)
  else none

/-- The code unit written by four hexadecimal digits. -/
def codeUnit? (a b c d : Char) : Option Nat := do
  let digits ← [a, b, c, d].mapM hexDigit?
  return digits.foldl (fun n digit => 16 * n + digit) 0

/-- The code units from `0xd800` on are first halves, those from `0xdc00` on second
halves, and from `0xe000` on they are characters again. -/
def Piece.ofCodeUnit (n : Nat) : Piece :=
  if n < 0xd800 then .char (Char.ofNat n)
  else if n < 0xdc00 then .leading (n - 0xd800)
  else if n < 0xe000 then .trailing (n - 0xdc00)
  else .char (Char.ofNat n)

/-- The character that a backslash and `c` stand for. -/
def escaped? (c : Char) : Option Char :=
  [('"', '"'), ('\\', '\\'), ('/', '/'), ('b', '\x08'), ('f', '\x0c'), ('n', '\n'),
    ('r', '\r'), ('t', '\t')].lookup c

/-- The pieces of a literal up to its closing quotation mark, and what follows it. -/
def pieces? : List Char → Option (List Piece × List Char)
  | [] => none
  | '"' :: rest => some ([], rest)
  | '\\' :: 'u' :: a :: b :: c :: d :: rest => do
      let unit ← codeUnit? a b c d
      let (ps, rest) ← pieces? rest
      return (.ofCodeUnit unit :: ps, rest)
  | '\\' :: c :: rest => do
      let c ← escaped? c
      let (ps, rest) ← pieces? rest
      return (.char c :: ps, rest)
  | c :: rest =>
      if c < ' ' then none
      else do
        let (ps, rest) ← pieces? rest
        return (.char c :: ps, rest)

/-- The characters that the pieces stand for, if every half has its other half. -/
def assemble : List Piece → Option (List Char)
  | [] => some []
  | .char c :: ps => (assemble ps).map (c :: ·)
  | .leading high :: .trailing low :: ps =>
      (assemble ps).map (Char.ofNat (0x10000 + 0x400 * high + low) :: ·)
  | .leading _ :: _ => none
  | .trailing _ :: _ => none

/-- What follows a literal is an end of what it was read from. -/
theorem suffix_of_pieces? {cs rest : List Char} {ps : List Piece}
    (h : pieces? cs = some (ps, rest)) : rest <:+ cs := by
  fun_induction pieces? cs generalizing ps rest with
  | case1 => simp at h
  | case2 => simp_all
  | case3 a b c d cs ih =>
      simp only [Option.bind_eq_bind, Option.bind_eq_some_iff, Option.pure_def,
        Option.some.injEq, Prod.mk.injEq, Prod.exists] at h
      obtain ⟨_, _, _, _, h, _, rfl⟩ := h
      exact (ih h).trans ⟨['\\', 'u', a, b, c, d], rfl⟩
  | case4 c cs _ ih =>
      simp only [Option.bind_eq_bind, Option.bind_eq_some_iff, Option.pure_def,
        Option.some.injEq, Prod.mk.injEq, Prod.exists] at h
      obtain ⟨_, _, _, _, h, _, rfl⟩ := h
      exact (ih h).trans ⟨['\\', c], rfl⟩
  | case5 => simp at h
  | case6 c cs _ _ _ _ ih =>
      simp only [Option.bind_eq_bind, Option.bind_eq_some_iff, Option.pure_def,
        Option.some.injEq, Prod.mk.injEq, Prod.exists] at h
      obtain ⟨_, _, h, _, rfl⟩ := h
      exact (ih h).trans (List.suffix_cons _ _)

end Raster.Json.Text
