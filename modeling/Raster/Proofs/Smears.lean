import Raster.Proofs.Requests
/-!
# Smears

A copy inside one picture goes from left to right. If a span is copied to the right onto a part of
itself, the copy comes to sources that it has drawn over, and reads again what it has drawn. So
the columns that are left of the destination are all that is ever seen of the source, and they are
repeated up to the end of the span (`smear`): after every step the picture is smeared as far as
the copy has come (`drawPixels_copy`), because the next source is either still the old one or a
pixel of the smear, whose color is known (`color_smear_source`).

A copy from a snapshot does not smear. `copies_smear` says what a copy within a row leaves, and
that wherever it reads what it has drawn there are pictures that show the difference.
-/

namespace Raster

variable {f : PixelFormat}

/-- Every format has two colors. -/
theorem Color.exists_ne (f : PixelFormat) : ∃ c c' : Color f, c ≠ c' := by
  cases f with
  | gray8 => exact ⟨.gray 0, .gray 1, by decide⟩
  | rgb565 => exact ⟨.rgb565 0, .rgb565 1, by decide⟩
  | bgra8888 => exact ⟨.bgra 0 0 0 0, .bgra 0 0 0 1, by decide⟩

namespace Framebuffer

variable {fb : Framebuffer f} {sx x y n : Nat}

/-- The `n` pixels from `(x, y)` to the right replaced by those from column `sx` on, of which the
ones to the left of `x` are repeated. -/
def smear (sx x y n : Nat) (fb : Framebuffer f) : Framebuffer f :=
  fb.mapPixels fun X Y d =>
    if Y = y ∧ x ≤ X ∧ X < x + n then fb.color (sx + (X - x) % (x - sx)) y else d

theorem pixel?_smear_of_not {X Y : Nat} (outside : ¬ (Y = y ∧ x ≤ X ∧ X < x + n)) :
    (fb.smear sx x y n).pixel? X Y = fb.pixel? X Y := by
  rw [smear, pixel?_mapPixels]
  simp only [outside, if_false, Option.map_id']

theorem pixel?_smear (later : sx < x) (column : x + n ≤ fb.width.toNat)
    (row : y < fb.height.toNat) {i : Nat} (hi : i < n) :
    (fb.smear sx x y n).pixel? (x + i) y = fb.pixel? (sx + i % (x - sx)) y := by
  have left : i % (x - sx) < x - sx := Nat.mod_lt i (Nat.sub_pos_of_lt later)
  have inside : y = y ∧ x ≤ x + i ∧ x + i < x + n := ⟨rfl, Nat.le_add_right .., by omega⟩
  rw [smear, fb.pixel?_mapPixels_of_lt _ (by omega) row, if_pos inside, Nat.add_sub_cancel_left,
    fb.pixel?_eq_color (by omega) row]

/-- The source of the next place of a smear. It is one of the first few, or it is so many places
behind the next place that it has been drawn from the same source as that one will be. -/
theorem color_smear_source (later : sx < x) (column : x + n < fb.width.toNat)
    (row : y < fb.height.toNat) :
    (fb.smear sx x y n).color (sx + n) y = fb.color (sx + n % (x - sx)) y := by
  by_cases unread : n < x - sx
  · rw [color, pixel?_smear_of_not (by omega), Nat.mod_eq_of_lt unread, color]
  · have far : x - sx ≤ n := Nat.le_of_not_lt unread
    have behind : sx + n = x + (n - (x - sx)) := by omega
    rw [color, behind, pixel?_smear later (Nat.le_of_lt column) row (by omega),
      ← Nat.mod_eq_sub_mod far, color]

/-- One more place is one more pixel drawn from the source that is there by then. -/
theorem smear_succ (later : sx < x) (column : x + n < fb.width.toNat)
    (row : y < fb.height.toNat) :
    (fb.smear sx x y n).drawPixel .copy (sx + n) y (x + n) y = fb.smear sx x y (n + 1) := by
  rw [drawPixel, color_smear_source later column row, smear, mapPixels_mapPixels, smear]
  congr 1
  funext X Y d
  rw [Operation.result_of_not_skips rfl, Operation.combine]
  by_cases last : X = x + n ∧ Y = y
  · obtain ⟨rfl, rfl⟩ := last
    rw [if_pos ⟨rfl, rfl⟩, if_pos ⟨rfl, Nat.le_add_right .., Nat.lt_succ_self _⟩,
      Nat.add_sub_cancel_left]
  · have earlier : (Y = y ∧ x ≤ X ∧ X < x + n) ↔ (Y = y ∧ x ≤ X ∧ X < x + (n + 1)) := by omega
    simp only [last, if_false, earlier]

/-- As far as a copy to the right within a row has come, the row is smeared. -/
theorem drawPixels_copy (later : sx < x) (column : x + n ≤ fb.width.toNat)
    (row : y < fb.height.toNat) : fb.drawPixels .copy sx y x y n = fb.smear sx x y n := by
  induction n with
  | zero =>
      have nowhere : ∀ X Y, ¬ (Y = y ∧ x ≤ X ∧ X < x + 0) := by omega
      simp only [smear, nowhere, if_false]
      exact fb.mapPixels_id.symm
  | succ n ih => rw [drawPixels_succ, ih (Nat.le_of_succ_le column), smear_succ later column row]

section Requests

variable {x sx y n : UInt32}

/-- The request smears the span. -/
theorem copySpanWithin_copy (later : sx < x) (inside : fb.HasSpan x y n) :
    fb.copySpanWithin .copy x y sx y n =
      .finished (fb.smear sx.toNat x.toNat y.toNat n.toNat) := by
  obtain ⟨row, column⟩ := inside
  rw [UInt32.lt_iff_toNat_lt] at later
  have insideSrc : fb.HasSpan sx y n := ⟨row, by omega⟩
  rw [copySpanWithin_eq, (Asks.checkCopySpan ..).passes ⟨⟨row, column⟩, insideSrc⟩ trivial,
    drawPixels_copy later column row]
  rfl

/-- One from another picture shifts it, and so does one from a snapshot. -/
theorem pixel?_copySpan_copy {src fb' : Framebuffer f} {sy : UInt32} {i : Nat}
    (inside : fb.HasSpan x y n) (insideSrc : src.HasSpan sx sy n)
    (done : fb.copySpan .copy x y src sx sy n = .finished fb') (hi : i < n.toNat) :
    fb'.pixel? (x.toNat + i) y.toNat = src.pixel? (sx.toNat + i) sy.toNat := by
  have granted := (Asks.checkCopySpan fb.toGeometry src.toGeometry x y sx sy n).passes
    ⟨inside, insideSrc⟩ trivial
  rw [copySpan_eq, granted] at done
  cases done
  obtain ⟨row, column⟩ := inside
  obtain ⟨rowSrc, columnSrc⟩ := insideSrc
  have within : (Band.ofSpan x y n).Contains (x.toNat + i) y.toNat :=
    Band.contains_ofSpan.mpr ⟨rfl, Nat.le_add_right .., Nat.add_lt_add_left hi _⟩
  rw [fb.pixel?_mapPixels_of_lt _ (by omega) row, Band.inside_of_contains within,
    Operation.result_of_not_skips rfl, Operation.combine, src.pixel?_eq_color (by omega) rowSrc]
  exact congrArg (fun k => some (src.color (sx.toNat + k) sy.toNat)) (Nat.add_sub_cancel_left ..)

/-- If the span is longer than the columns on its left that are its source, a copy from a snapshot
comes to the same only for a picture whose first source looks like the first pixel of the span. -/
theorem pixel?_eq_of_same_copy
    (same : fb.copySpanWithin .copy x y sx y n = fb.copySpan .copy x y fb sx y n) (later : sx < x)
    (inside : fb.HasSpan x y n) (overlap : x.toNat - sx.toNat < n.toNat) :
    fb.pixel? sx.toNat y.toNat = fb.pixel? x.toNat y.toNat := by
  rw [copySpanWithin_copy later inside] at same
  rw [UInt32.lt_iff_toNat_lt] at later
  obtain ⟨row, column⟩ := inside
  -- The one repeats the first source where the other puts what the first pixel was.
  have shifted := pixel?_copySpan_copy ⟨row, column⟩ ⟨row, by omega⟩ same.symm overlap
  rwa [pixel?_smear later column row overlap, Nat.mod_self, Nat.add_zero,
    Nat.add_sub_cancel' (Nat.le_of_lt later)] at shifted

/-- So there are pictures of every size that show the difference. -/
theorem exists_smear_ne (later : sx < x) (inside : fb.HasSpan x y n)
    (overlap : x.toNat - sx.toNat < n.toNat) :
    ∃ other : Framebuffer f, other.toGeometry = fb.toGeometry ∧
      other.copySpanWithin .copy x y sx y n ≠ other.copySpan .copy x y other sx y n := by
  obtain ⟨c, c', different⟩ := Color.exists_ne f
  refine ⟨fb.mapPixels fun X _ _ => if X = x.toNat then c' else c, rfl, ?_⟩
  intro same
  have alike := pixel?_eq_of_same_copy same later inside overlap
  obtain ⟨row, column⟩ := inside
  rw [UInt32.lt_iff_toNat_lt] at later
  rw [fb.pixel?_mapPixels_of_lt _ (by omega) row, fb.pixel?_mapPixels_of_lt _ (by omega) row,
    if_neg (Nat.ne_of_lt later), if_pos rfl] at alike
  exact different (Option.some.inj alike)

end Requests

/-- A copy to the right within a row, in range, is granted. The first pixel of the span, the second
and so on become what the old sources were, from the first one up to the column before the span and
then from the first one again; nothing else changes. If the span is longer than that there are
pictures of the same size for which a copy from a snapshot comes to something else. -/
theorem copies_smear (fb : Framebuffer f) {x sx y n : UInt32} (later : sx < x)
    (inside : fb.HasSpan x y n) :
    (∃ fb', fb.copySpanWithin .copy x y sx y n = .finished fb' ∧
      fb'.toGeometry = fb.toGeometry ∧
      (∀ i < n.toNat, fb'.pixel? (x.toNat + i) y.toNat =
        fb.pixel? (sx.toNat + i % (x.toNat - sx.toNat)) y.toNat) ∧
      ∀ X Y, ¬ (Band.ofSpan x y n).Contains X Y → fb'.pixel? X Y = fb.pixel? X Y) ∧
    (x.toNat - sx.toNat < n.toNat →
      ∃ other : Framebuffer f, other.toGeometry = fb.toGeometry ∧
        other.copySpanWithin .copy x y sx y n ≠ other.copySpan .copy x y other sx y n) := by
  refine ⟨⟨_, copySpanWithin_copy later inside, rfl, ?_, ?_⟩, exists_smear_ne later inside⟩
  · intro i hi
    exact pixel?_smear (UInt32.lt_iff_toNat_lt.mp later) inside.2 inside.1 hi
  · intro X Y outside
    exact pixel?_smear_of_not fun within => outside (Band.contains_ofSpan.mpr within)

/-- In the lower row of a picture stored bottom up, the first two of five pixels over the other
three: they are there twice and a half then. -/
theorem copies_smear_pair :
    let fb : Framebuffer .gray8 :=
      ⟨⟨5, 2, .bottomUp⟩, #[1, 2, 3, 4, 5, 6, 7, 8, 9, 10], rfl, by decide⟩
    ∃ fb', fb.copySpanWithin .copy 2 1 0 1 3 = .finished fb' ∧
      (fb'.pixel? 2 1 = some (.gray 1) ∧ fb'.pixel? 3 1 = some (.gray 2) ∧
        fb'.pixel? 4 1 = some (.gray 1)) ∧
      fb'.pixel? 1 1 = some (.gray 2) ∧ fb'.pixel? 4 0 = some (.gray 10) ∧
      ∃ other : Framebuffer .gray8, other.toGeometry = fb.toGeometry ∧
        other.copySpanWithin .copy 2 1 0 1 3 ≠ other.copySpan .copy 2 1 other 0 1 3 := by
  intro fb
  have later : (0 : UInt32) < 2 := by decide
  have inside : fb.HasSpan 2 1 3 := ⟨by decide, by decide⟩
  obtain ⟨⟨fb', done, -, smeared, same⟩, differs⟩ := copies_smear fb later inside
  have first : fb.pixel? 0 1 = some (.gray 1) := rfl
  have second : fb.pixel? 1 1 = some (.gray 2) := rfl
  have corner : fb.pixel? 4 0 = some (.gray 10) := rfl
  exact ⟨fb', done, ⟨(smeared 0 (by decide)).trans first, (smeared 1 (by decide)).trans second,
    (smeared 2 (by decide)).trans first⟩, (same 1 1 (by decide)).trans second,
    (same 4 0 (by decide)).trans corner, differs (by decide)⟩

end Framebuffer

end Raster
