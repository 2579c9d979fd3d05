/-!
# Numerals

A JSON numeral: an optional sign, a whole part without leading zeros, an optional
fraction, an optional exponent. `scan?` takes the longest numeral off the front of a
text; each of its parts is split off by a function of its own that loses nothing
(`scan?_append`).

A numeral denotes a natural number (`toNat?`) only if it is written by digits alone:
`-0`, `1.0` and `1e1` do not.
-/

namespace Raster.Json.Numeral

/-- The digits at the front, of which there must be one, and what follows them. -/
def digits? (cs : List Char) : Option (List Char × List Char) :=
  if cs.takeWhile Char.isDigit = [] then none
  else some (cs.takeWhile Char.isDigit, cs.dropWhile Char.isDigit)

def sign : List Char → List Char × List Char
  | '-' :: rest => (['-'], rest)
  | cs => ([], cs)

/-- The whole part: a zero alone, or digits that do not start with a zero. -/
def whole? : List Char → Option (List Char × List Char)
  | '0' :: rest => some (['0'], rest)
  | cs => digits? cs

/-- The fraction, if there is a point. -/
def fraction? : List Char → Option (List Char × List Char)
  | '.' :: rest => (digits? rest).map fun (ds, rest) => ('.' :: ds, rest)
  | cs => some ([], cs)

def exponentSign : List Char → List Char × List Char
  | '+' :: rest => (['+'], rest)
  | '-' :: rest => (['-'], rest)
  | cs => ([], cs)

/-- The exponent, if there is an `e`. -/
def exponent? : List Char → Option (List Char × List Char)
  | [] => some ([], [])
  | c :: cs =>
      if c = 'e' ∨ c = 'E' then
        (digits? (exponentSign cs).2).map fun (ds, rest) => (c :: (exponentSign cs).1 ++ ds, rest)
      else some ([], c :: cs)

/-- The longest numeral at the front, and what follows it. -/
def scan? (cs : List Char) : Option (List Char × List Char) := do
  let (minus, rest) := sign cs
  let (whole, rest) ← whole? rest
  let (fraction, rest) ← fraction? rest
  let (exponent, rest) ← exponent? rest
  return (minus ++ whole ++ fraction ++ exponent, rest)

/-- The natural number denoted by a numeral of digits alone. -/
def toNat? (literal : List Char) : Option Nat :=
  if literal.all Char.isDigit then some (Nat.ofDigitChars 10 literal 0) else none

/-! ### Nothing is lost -/

variable {cs part rest : List Char}

theorem digits?_append (h : digits? cs = some (part, rest)) : part ++ rest = cs := by
  unfold digits? at h
  split at h
  · simp at h
  · obtain ⟨rfl, rfl⟩ := by simpa using h
    exact List.takeWhile_append_dropWhile

theorem ne_nil_of_digits? (h : digits? cs = some (part, rest)) : part ≠ [] := by
  unfold digits? at h
  split at h
  · exact absurd h (by simp)
  · rename_i nonempty
    injection h with h
    injection h with h _
    exact h ▸ nonempty

theorem sign_append (cs : List Char) : (sign cs).1 ++ (sign cs).2 = cs := by
  unfold sign
  split <;> rfl

theorem whole?_append (h : whole? cs = some (part, rest)) : part ++ rest = cs := by
  unfold whole? at h
  split at h
  · obtain ⟨rfl, rfl⟩ := by simpa using h
    rfl
  · exact digits?_append h

theorem fraction?_append (h : fraction? cs = some (part, rest)) : part ++ rest = cs := by
  unfold fraction? at h
  split at h
  · obtain ⟨⟨ds, rest'⟩, hd, heq⟩ := Option.map_eq_some_iff.1 h
    obtain ⟨rfl, rfl⟩ := by simpa using heq
    simp [digits?_append hd]
  · obtain ⟨rfl, rfl⟩ := by simpa using h
    rfl

theorem exponentSign_append (cs : List Char) :
    (exponentSign cs).1 ++ (exponentSign cs).2 = cs := by
  unfold exponentSign
  split <;> rfl

theorem exponent?_append (h : exponent? cs = some (part, rest)) : part ++ rest = cs := by
  unfold exponent? at h
  split at h
  · obtain ⟨rfl, rfl⟩ := by simpa using h
    rfl
  · split at h
    · obtain ⟨⟨ds, rest'⟩, hd, heq⟩ := Option.map_eq_some_iff.1 h
      obtain ⟨rfl, rfl⟩ := by simpa using heq
      simp [digits?_append hd, exponentSign_append]
    · obtain ⟨rfl, rfl⟩ := by simpa using h
      rfl

theorem ne_nil_of_whole? (h : whole? cs = some (part, rest)) : part ≠ [] := by
  unfold whole? at h
  split at h
  · injection h with h
    injection h with h _
    exact h ▸ List.cons_ne_nil _ _
  · exact ne_nil_of_digits? h

/-- The numeral and what follows it are the text. -/
theorem scan?_append (h : scan? cs = some (part, rest)) : part ++ rest = cs := by
  simp only [scan?, Option.bind_eq_bind, Option.bind_eq_some_iff, Option.pure_def,
    Option.some.injEq, Prod.mk.injEq, Prod.exists] at h
  obtain ⟨w, r₁, hw, f, r₂, hf, e, r₃, he, rfl, rfl⟩ := h
  simp only [List.append_assoc]
  rw [exponent?_append he, fraction?_append hf, whole?_append hw, sign_append]

theorem ne_nil_of_scan? (h : scan? cs = some (part, rest)) : part ≠ [] := by
  simp only [scan?, Option.bind_eq_bind, Option.bind_eq_some_iff, Option.pure_def,
    Option.some.injEq, Prod.mk.injEq, Prod.exists] at h
  obtain ⟨w, r₁, hw, f, r₂, hf, e, r₃, he, rfl, rfl⟩ := h
  simp [ne_nil_of_whole? hw]

/-- What follows a numeral is shorter than the text. -/
theorem length_lt_of_scan? (h : scan? cs = some (part, rest)) : rest.length < cs.length := by
  have length := congrArg List.length (scan?_append h)
  have positive := List.length_pos_iff.2 (ne_nil_of_scan? h)
  rw [List.length_append] at length
  omega

end Raster.Json.Numeral
