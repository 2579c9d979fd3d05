import Mathlib.Data.Int.ModEq
import Raster.Proofs.Spans
/-!
# Where locations land

A span that takes `n` steps from its location is, over exact integers, at the position
`Location.position`, which may lie before the first pixel or far behind the last one. The
machine knows it modulo 2⁶⁴ only, once for the index and once more for the bytes, and so
there are no more than `PixelFormat.turn` places that a pixel can be addressed at: the
position counts modulo their number (`cell_advance`).

From that follows where an access faults. It does so at every position outside the buffer
that is less than a turn away from it (`faultsAt_advance_of_near`), and in general unless the
position is a whole number of turns away from a pixel of the buffer (`faultsAt_advance_iff`).
In that case it lands on this pixel (`lands_before_first`).
-/

namespace Raster

variable {f : PixelFormat}

/-- How many pixels there are in the whole address space. -/
def PixelFormat.turn (f : PixelFormat) : Nat := UInt64.size / f.bytesPerPixel

theorem PixelFormat.turn_mul (f : PixelFormat) : f.turn * f.bytesPerPixel = UInt64.size := by
  cases f <;> rfl

namespace Location

/-- Where a span is after `n` steps, over exact integers. -/
def position (l : Location) (n : Nat) : Int := l.index.toNat + l.step.toInt * n

/-- As an index, a step is known up to whole turns of the address space. -/
theorem step_modEq (step : Int64) :
    (step.toUInt64.toNat : Int) ≡ step.toInt [ZMOD UInt64.size] := by
  have bits : step.toInt = (step.toUInt64.toNat : Int).bmod UInt64.size :=
    BitVec.toInt_eq_toNat_bmod step.toBitVec
  rw [bits]
  exact Int.bmod_emod.symm

/-- So is an index after some steps. -/
theorem index_advance_modEq (l : Location) (n : Nat) :
    ((l.advance n).index.toNat : Int) ≡ l.position n [ZMOD UInt64.size] := by
  have index : (l.advance n).index.toNat ≡
      l.index.toNat + l.step.toUInt64.toNat * n [MOD UInt64.size] := by
    rw [index_advance, UInt64.toNat_add, UInt64.toNat_mul, UInt64.toNat_ofNat']
    exact (Nat.mod_modEq _ _).trans
      (((Nat.mod_modEq _ _).trans ((Nat.mod_modEq n _).mul_left _)).add_left _)
  rw [← Int.natCast_modEq_iff, Nat.cast_add, Nat.cast_mul] at index
  exact index.trans (((step_modEq l.step).mul_right _).add_left _)

/-- The place of a location is its index, up to whole turns. -/
theorem cell_eq_mod (l : Location) (f : PixelFormat) : l.cell f = l.index.toNat % f.turn := by
  rw [cell, offset_eq_mod, ← f.turn_mul, Nat.mul_mod_mul_right,
    Nat.mul_div_cancel _ f.bytesPerPixel_pos]

/-- The place of a span after some steps is its position, up to whole turns. -/
theorem cell_advance (l : Location) (n : Nat) (f : PixelFormat) :
    ((l.advance n).cell f : Int) = l.position n % f.turn := by
  have whole : (f.turn : Int) ∣ UInt64.size :=
    Int.natCast_dvd_natCast.mpr ⟨f.bytesPerPixel, f.turn_mul.symm⟩
  rw [cell_eq_mod, Int.natCast_mod]
  exact (index_advance_modEq l n).of_dvd whole

end Location

namespace Buffer

variable {b : Buffer} {l : Location}

/-- An access to the location is a fault, be it to read or to write, and nothing is written. -/
def FaultsAt (f : PixelFormat) (b : Buffer) (l : Location) : Prop :=
  pixel? f b l = none ∧ ∀ c : Color f, writePixel b l c = .stopped .destinationOutside b

/-- An access faults exactly if the location does not fit. -/
theorem faultsAt_iff_not_fits : FaultsAt f b l ↔ ¬ l.Fits f b.size := by
  constructor
  · rintro ⟨unread, -⟩ fits
    have read := isSome_pixel?.mpr fits
    rw [unread] at read
    cases read
  · intro outside
    exact ⟨if_neg outside, fun c => if_neg outside⟩

/-- That is, if there is no pixel of the buffer in its place. -/
theorem faultsAt_iff (small : b.size < UInt64.size) :
    FaultsAt f b l ↔ b.size < (l.cell f + 1) * f.bytesPerPixel := by
  rw [faultsAt_iff_not_fits, ← Location.isSome_cell?_iff_fits small, isSome_cell?, Nat.not_le]

/-- Every pixel of a buffer with 64-bit addresses is less than a turn away from the first. -/
theorem place_lt_turn (small : b.size < UInt64.size) {i : Nat}
    (inside : (i + 1) * f.bytesPerPixel ≤ b.size) : i < f.turn := by
  have bytes : (i + 1) * f.bytesPerPixel < f.turn * f.bytesPerPixel := by
    rw [f.turn_mul]
    exact Nat.lt_of_le_of_lt inside small
  exact Nat.lt_of_succ_lt (Nat.lt_of_mul_lt_mul_right bytes)

/-- An access after some steps of a span faults unless the position is a whole number of turns
away from a pixel of the buffer. -/
theorem faultsAt_advance_iff (small : b.size < UInt64.size) (n : Nat) :
    FaultsAt f b (l.advance n) ↔
      ∀ i : Nat, (i + 1) * f.bytesPerPixel ≤ b.size → ¬ l.position n ≡ i [ZMOD f.turn] := by
  have place := l.cell_advance n f
  rw [faultsAt_iff small]
  constructor
  · intro outside i inside turns
    have before := place_lt_turn small inside
    have same : (l.advance n).cell f = i := by
      rw [turns.eq, Int.emod_eq_of_lt (by omega) (by omega)] at place
      exact Int.ofNat_inj.mp place
    rw [same] at outside
    exact Nat.not_lt_of_le inside outside
  · intro apart
    refine Nat.lt_of_not_le ?_
    intro inside
    refine apart _ inside ?_
    rw [place]
    exact (Int.mod_modEq _ _).symm

/-- It faults at every position outside the buffer that is less than a turn away from it. -/
theorem faultsAt_advance_of_near (small : b.size < UInt64.size) {n : Nat}
    (outside : l.position n < 0 ∨ b.size < (l.position n + 1) * f.bytesPerPixel)
    (front : b.size < (l.position n + f.turn + 1) * f.bytesPerPixel)
    (back : l.position n < f.turn) : FaultsAt f b (l.advance n) := by
  have place := l.cell_advance n f
  have pos : (0 : Int) < f.bytesPerPixel := Int.natCast_pos.mpr f.bytesPerPixel_pos
  rw [faultsAt_iff small, ← Int.ofNat_lt]
  push_cast
  rcases lt_or_ge (l.position n) 0 with before | behind
  · -- The buffer has no negative number of bytes, so the position is not a turn away.
    have turned : 0 < l.position n + f.turn + 1 := by
      refine Int.not_le.mp ?_
      intro gone
      have negative := Int.mul_le_mul_of_nonneg_right gone pos.le
      omega
    rw [← Int.add_emod_right, Int.emod_eq_of_lt (by omega) (by omega)] at place
    rwa [place]
  · rw [Int.emod_eq_of_lt behind back] at place
    rw [place]
    exact outside.resolve_left (Int.not_lt.mpr behind)

/-- Where a span leaves a buffer with 64-bit addresses, on whichever side, an access is a fault
and nothing is written, unless the position is a whole number of turns of the address space
away from one of the pixels. Less than a turn away it never is. -/
theorem faultsAt_outside (f : PixelFormat) (b : Buffer) (l : Location) (n : Nat)
    (small : b.size < UInt64.size)
    (outside : l.position n < 0 ∨ b.size < (l.position n + 1) * f.bytesPerPixel) :
    (FaultsAt f b (l.advance n) ↔
      ∀ i : Nat, (i + 1) * f.bytesPerPixel ≤ b.size → ¬ l.position n ≡ i [ZMOD f.turn]) ∧
    (b.size < (l.position n + f.turn + 1) * f.bytesPerPixel → l.position n < f.turn →
      FaultsAt f b (l.advance n)) := by
  constructor
  · exact faultsAt_advance_iff small n
  · exact faultsAt_advance_of_near small outside

/-- A step in front of the first of sixteen pixels. -/
theorem faultsAt_outside_reversed :
    let b : Buffer := #[1, 2, 3, 4, 5, 6, 7, 8, 9, 10, 11, 12, 13, 14, 15, 16]
    let l : Location := .reversed 0
    b.size < UInt64.size ∧ l.position 1 < 0 ∧ FaultsAt .gray8 b (l.advance 1) := by
  intro b l
  have small : b.size < UInt64.size := by decide
  have before : l.position 1 < 0 := by decide
  have near := (faultsAt_outside .gray8 b l 1 small (.inl before)).2
  exact ⟨small, before, near (by decide) (by decide)⟩

/-- A turn in front of the first of two pixels is the first one again. It is read, and it is
written. -/
theorem lands_before_first :
    let b : Buffer := #[5, 6, 7, 8, 9, 10, 11, 12]
    let l : Location := ⟨1, -4611686018427387905⟩
    l.position 1 = -4611686018427387904 ∧ l.position 1 < 0 ∧
      pixel? .bgra8888 b (l.advance 1) = some (.bgra 5 6 7 8) ∧
      writePixel b (l.advance 1) (.bgra 1 2 3 4) = .finished #[1, 2, 3, 4, 9, 10, 11, 12] := by
  intro b l
  have fits : (l.advance 1).Fits .bgra8888 b.size := by decide
  have start : (l.advance 1).offset .bgra8888 = 0 := by decide
  refine ⟨by decide, by decide, by decide, ?_⟩
  rw [writePixel, if_pos fits, start]
  rfl

end Buffer

end Raster
