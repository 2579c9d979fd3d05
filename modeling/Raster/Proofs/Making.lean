import Raster.Framebuffer.Basic
/-!
# What comes of making a framebuffer

A framebuffer is made blank or of given bytes, and either way its size is checked first. The
check asks whether the number of its bytes is a 64-bit number. For given bytes nothing more is
needed: they are taken exactly if they are as many (`isOk_ofBytes_iff`). A blank picture
must also be allocated, and allocations end at half the 64-bit numbers (`maxAllocation`). Sizes
between the two limits pass the check and are a fault, and these are the only ones
(`blank_settled`).
-/

namespace Raster.Framebuffer

variable {f : PixelFormat} {g : Geometry} {fb : Framebuffer f}

/-! ### Blank pictures -/

/-- A size that can be allocated is granted, and all bytes are zero. -/
theorem blank_of_le (h : g.byteLength f ≤ maxAllocation) :
    ∃ fb, blank f g = .ok fb ∧ fb.toGeometry = g ∧
      fb.bytes = Array.replicate (g.byteLength f) 0 := by
  have small : g.byteLength f < UInt64.size := Nat.lt_of_le_of_lt h (by decide)
  refine ⟨⟨g, Array.replicate (g.byteLength f) 0, by simp, by simpa using small⟩, ?_, rfl, rfl⟩
  rw [blank, dif_pos small, if_pos h]

/-- A size that is not a 64-bit number is refused. -/
theorem blank_of_ge (h : UInt64.size ≤ g.byteLength f) :
    blank f g = .error (.error .sizeOverflow) := dif_neg (Nat.not_lt.mpr h)

/-- A size between the two is a fault. -/
theorem blank_of_between (large : maxAllocation < g.byteLength f)
    (small : g.byteLength f < UInt64.size) :
    blank f g = .error (.fault (.allocationTooLarge (g.byteLength f))) := by
  rw [blank, dif_pos small, if_neg (Nat.not_le.mpr large)]

/-- A blank picture has the size it was asked for with. -/
theorem toGeometry_of_blank (made : blank f g = .ok fb) : fb.toGeometry = g := by
  rw [blank] at made
  split at made
  · split at made
    · cases made
      rfl
    · cases made
  · cases made

/-- A request for a blank picture is granted with as many zero bytes as its pixels take, if
these can be allocated; it is refused, if their number is not a 64-bit number; and it is a
fault for the numbers in between, and only for those. -/
theorem blank_settled (f : PixelFormat) (g : Geometry) :
    ((∃ fb, blank f g = .ok fb ∧ fb.toGeometry = g ∧
        fb.bytes = Array.replicate (g.byteLength f) 0) ↔ g.byteLength f ≤ maxAllocation) ∧
    ((∃ e, blank f g = .error (.error e) ∧ e.category = .validation) ↔
      UInt64.size ≤ g.byteLength f) ∧
    ((∃ fault, blank f g = .error (.fault fault)) ↔
      maxAllocation < g.byteLength f ∧ g.byteLength f < UInt64.size) := by
  have limits : maxAllocation < UInt64.size := by decide
  rcases Nat.lt_or_ge maxAllocation (g.byteLength f) with large | fits
  · rcases Nat.lt_or_ge (g.byteLength f) UInt64.size with small | huge
    · have answer := blank_of_between large small
      refine ⟨iff_of_false ?_ (Nat.not_le.mpr large), iff_of_false ?_ (Nat.not_le.mpr small),
        iff_of_true ⟨_, answer⟩ ⟨large, small⟩⟩
      · simp [answer]
      · simp [answer]
    · have answer : blank f g = .error (.error .sizeOverflow) := blank_of_ge huge
      refine ⟨iff_of_false ?_ (Nat.not_le.mpr large), iff_of_true ⟨_, answer, rfl⟩ huge,
        iff_of_false ?_ fun between => Nat.not_lt.mpr huge between.2⟩
      · simp [answer]
      · simp [answer]
  · obtain ⟨fb, answer, geometry, bytes⟩ := blank_of_le fits
    refine ⟨iff_of_true ⟨fb, answer, geometry, bytes⟩ fits, iff_of_false ?_ ?_,
      iff_of_false ?_ fun between => Nat.not_lt.mpr fits between.1⟩
    · simp [answer]
    · exact Nat.not_le.mpr (Nat.lt_of_le_of_lt fits limits)
    · simp [answer]

/-- The largest gray picture is no less than half of all 64-bit numbers of bytes, and no more
than all of them. -/
theorem blank_largest_gray8 :
    blank .gray8 ⟨4294967295, 4294967295, .topDown⟩ =
      .error (.fault (.allocationTooLarge 18446744065119617025)) := by
  exact blank_of_between (by decide) (by decide)

/-! ### Pictures of given bytes -/

theorem toGeometry_of_ofBytes {bytes : Buffer} (made : ofBytes f g bytes = .ok fb) :
    fb.toGeometry = g := by
  rw [ofBytes] at made
  split at made
  · split at made
    · cases made
      rfl
    · cases made
  · cases made

/-- Bytes that are as many as the pixels take are taken as they are. -/
theorem ofBytes_eq_ok {bytes : Buffer} (size : bytes.size = g.byteLength f)
    (small : bytes.size < UInt64.size) : ofBytes f g bytes = .ok ⟨g, bytes, size, small⟩ := by
  rw [ofBytes, dif_pos (size ▸ small), dif_pos size]

/-- Bytes in memory are taken exactly if they are as many as the pixels take. -/
theorem isOk_ofBytes_iff {bytes : Buffer} (memory : bytes.size < UInt64.size) :
    (∃ fb, ofBytes f g bytes = .ok fb) ↔ bytes.size = g.byteLength f := by
  rw [ofBytes]
  constructor
  · rintro ⟨fb, made⟩
    split at made
    · split at made
      · next same => exact same
      · cases made
    · cases made
  · intro same
    rw [same] at memory
    rw [dif_pos memory, dif_pos same]
    exact ⟨_, rfl⟩

end Raster.Framebuffer
