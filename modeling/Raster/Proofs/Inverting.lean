import Raster.Proofs.Snapshots
import Raster.Proofs.Tiles
/-!
# Bitwise drawing through inverses

A span can be inverted where it is, by a copy onto itself. Each of its pixels is then read just
before it is drawn over, and so nothing is inverted twice: the request comes to a layer that makes
of every pixel what drawing it onto itself does (`Layer.onItself`,
`Drawing.answers_copySpanWithin_onItself`).

With that the bitwise operations can be had from each other. They are those of the words of the
pixels, in every format, and the laws of words become laws of requests
(`bitwise_through_inverse`):

* to invert twice is to do nothing;
* between two inversions of the destination, `orNot` is `and` (`Color.complement_orNot`);
* from the inverse of a source, `or` is `orNot` (`Color.or_complement`), wherever that inverse is
  kept (`Framebuffer.Inverts`).
-/

namespace Raster

variable {f : PixelFormat}

/-! ### Spans drawn onto themselves -/

/-- The pixels of a band, each drawn onto itself. -/
def Layer.onItself (op : Operation f f) (band : Band) : Layer f where
  band := band
  change := fun _ _ d => op.result d d

namespace Drawing

variable {g : Geometry} {x y n : UInt32}

theorem answers_copySpanWithin_onItself (op : Operation f f) (x y n : UInt32) :
    (copySpanWithin op x y x y n).Answers g (Framebuffer.checkCopySpan g g x y x y n)
      (.onItself op (.ofSpan x y n)) := by
  rintro pool fb rfl
  -- No source has been drawn over when it is read, so that this is a copy from a snapshot.
  have copied : fb.copySpan op x y fb x y n = fb.answer _ (fb.mapPixels _) :=
    answers_copySpan op x y fb x y n default fb rfl
  rw [outcome, Framebuffer.copySpanWithin_eq_copySpan op (.inr (.inl (UInt32.le_refl x))), copied]
  congr 1
  refine Framebuffer.mapPixels_congr_of_pixel? ?_
  intro X Y d there
  have old : fb.color X Y = d := by rw [Framebuffer.color, there, Option.getD_some]
  by_cases here : (Band.ofSpan x y n).Contains X Y
  · rw [Layer.paint_of_contains here, Layer.paint_of_contains here]
    obtain ⟨rfl, left, -⟩ := Band.contains_ofSpan.mp here
    rw [Layer.change_copy_ofSpan, Nat.add_sub_cancel' left, old]
    rfl
  · rw [Layer.paint_of_not_contains here, Layer.paint_of_not_contains here]

theorem manned_copySpanWithin_onItself (op : Operation f f) (inside : g.HasSpan x y n) :
    (copySpanWithin op x y x y n).Manned g True (.onItself op (.ofSpan x y n)) :=
  ⟨_, _, answers_copySpanWithin_onItself op x y n, Asks.checkCopySpan g g x y x y n, inside,
    inside⟩

end Drawing

/-! ### Laws of words -/

namespace Color

/-- Inverted before and after, a color is cleared by the bits that `orNot` leaves out. -/
theorem complement_orNot (unit : Granularity) (d c : Color f) :
    (bitwise unit .orNot (d.complement unit) c).complement unit = bitwise unit .and d c := by
  refine toWord_inj.mp ?_
  simp only [toWord_complement, toWord_bitwise, BitwiseOp.eval]
  cases f with
  | gray8 => exact UInt8.toBitVec_inj.mp (by simp [BitVec.not_or])
  | rgb565 => exact UInt16.toBitVec_inj.mp (by simp [BitVec.not_or])
  | bgra8888 => exact UInt32.toBitVec_inj.mp (by simp [BitVec.not_or])

theorem or_complement (unit : Granularity) (d c : Color f) :
    bitwise unit .or d (c.complement unit) = bitwise unit .orNot d c := by
  refine toWord_inj.mp ?_
  rw [toWord_bitwise, toWord_bitwise, toWord_complement]
  rfl

end Color

/-! ### Laws of requests -/

/-- The `n` pixels of a picture from `(tx, ty)` to the right are those of `src` from `(sx, sy)` to
the right, inverted. -/
structure Framebuffer.Inverts (inverse src : Framebuffer f) (unit : Granularity)
    (tx ty sx sy n : UInt32) : Prop where
  inside : inverse.HasSpan tx ty n
  pixels : ∀ i < n.toNat, inverse.pixel? (tx.toNat + i) ty.toNat =
    (src.pixel? (sx.toNat + i) sy.toNat).map (Color.complement unit)

namespace Drawing

variable {fb src inverse : Framebuffer f} {unit : Granularity} {x y sx sy tx ty n : UInt32}

/-- A span that is inverted twice is as before. -/
theorem inTurn_invert_invert (unit : Granularity) (inside : fb.HasSpan x y n)
    (pools : Nat → Pool) :
    inTurn pools [.copySpanWithin (.invert unit) x y x y n,
      .copySpanWithin (.invert unit) x y x y n] fb = .finished fb := by
  have inverted := (manned_copySpanWithin_onItself (.invert unit : Operation f f) inside).answers
    trivial
  rw [inTurn_eq_mapPixels (.cons inverted (.cons inverted .nil)) pools fb rfl,
    Framebuffer.mapPixels_congr, fb.mapPixels_id]
  intro X Y d _ _
  rw [Layer.paintAll_cons, Layer.paintAll_cons, Layer.paintAll_nil]
  by_cases here : (Band.ofSpan x y n).Contains X Y
  · rw [Layer.paint_of_contains here, Layer.paint_of_contains here]
    exact d.complement_complement unit
  · rw [Layer.paint_of_not_contains here, Layer.paint_of_not_contains here]

theorem inParts_and (unit : Granularity) (inside : fb.HasSpan x y n)
    (insideSrc : src.HasSpan sx sy n) :
    InParts fb True (.copySpan (.bitwise unit .and) x y src sx sy n)
      [.copySpanWithin (.invert unit) x y x y n,
        .copySpan (.bitwise unit .orNot) x y src sx sy n,
        .copySpanWithin (.invert unit) x y x y n] := by
  have inverted := manned_copySpanWithin_onItself (.invert unit : Operation f f) inside
  have drawn := manned_copySpan (.bitwise unit .orNot) inside insideSrc
  refine inParts_of_layers (manned_copySpan _ inside insideSrc)
    (.cons inverted (.cons drawn (.cons inverted .nil))) ?_
  intro X Y d _ _
  rw [Layer.paintAll_of_band]
  · exact List.forall_mem_cons.mpr ⟨rfl, List.forall_mem_cons.mpr ⟨rfl,
      List.forall_mem_singleton.mpr rfl⟩⟩
  · intro X Y _ d
    exact Color.complement_orNot unit d _

/-- The inverse of a span is made by an inverting copy of it. -/
theorem exists_inverts (unit : Granularity) (blank : Framebuffer f) (inside : blank.HasSpan tx ty n)
    (insideSrc : src.HasSpan sx sy n) :
    ∃ inverse, (∀ pool, (copySpan (.invert unit) tx ty src sx sy n).outcome pool blank =
      .finished inverse) ∧ inverse.Inverts src unit tx ty sx sy n := by
  have granted := (manned_copySpan (.invert unit : Operation f f) inside insideSrc).answers trivial
  refine ⟨_, fun pool => granted pool blank rfl, inside, ?_⟩
  intro i hi
  have here : (Band.ofSpan tx ty n).Contains (tx.toNat + i) ty.toNat :=
    Band.contains_ofSpan.mpr ⟨rfl, by omega, by omega⟩
  rw [blank.pixel?_mapPixels_of_lt _ (inside.column_lt hi) inside.1, Layer.paint_of_contains here,
    Layer.change_copy_ofSpan, Nat.add_sub_cancel_left,
    src.pixel?_eq_color (insideSrc.column_lt hi) insideSrc.1]
  rfl

theorem inParts_orNot (inside : fb.HasSpan x y n) (insideSrc : src.HasSpan sx sy n)
    (inverts : inverse.Inverts src unit tx ty sx sy n) :
    InParts fb True (.copySpan (.bitwise unit .orNot) x y src sx sy n)
      [.copySpan (.bitwise unit .or) x y inverse tx ty n] := by
  have drawn := manned_copySpan (.bitwise unit .or) inside inverts.inside
  refine inParts_of_layers (manned_copySpan _ inside insideSrc) (.cons drawn .nil) ?_
  intro X Y d _ _
  rw [Layer.paintAll_of_band]
  · exact List.forall_mem_singleton.mpr rfl
  · intro X Y within d
    obtain ⟨rfl, low, high⟩ := Band.contains_ofSpan.mp within
    have place : X - x.toNat < n.toNat := by omega
    have source : inverse.color (tx.toNat + (X - x.toNat)) ty.toNat =
        (src.color (sx.toNat + (X - x.toNat)) sy.toNat).complement unit := by
      rw [Framebuffer.color, inverts.pixels _ place,
        src.pixel?_eq_color (insideSrc.column_lt place) insideSrc.1]
      rfl
    rw [List.foldl_cons, List.foldl_nil, Layer.change_copy_ofSpan, Layer.change_copy_ofSpan, source]
    exact Color.or_complement unit d _

/-- A span that is inverted where it is, twice, is as before, with all of the framebuffer. If it is
inverted, drawn over with `orNot` and inverted again, the bytes are left that are left if the same
source is drawn with `and`. And wherever there is an inverse of the source, to draw that with `or`
leaves what drawing the source with `orNot` leaves; an inverting copy makes one in any span of the
same length, of any picture. All these requests are granted. -/
theorem bitwise_through_inverse (fb src : Framebuffer f) (unit : Granularity)
    (x y sx sy n : UInt32) (inside : fb.HasSpan x y n) (insideSrc : src.HasSpan sx sy n) :
    (∀ pools, inTurn pools [.copySpanWithin (.invert unit) x y x y n,
      .copySpanWithin (.invert unit) x y x y n] fb = .finished fb) ∧
    InParts fb True (.copySpan (.bitwise unit .and) x y src sx sy n)
      [.copySpanWithin (.invert unit) x y x y n,
        .copySpan (.bitwise unit .orNot) x y src sx sy n,
        .copySpanWithin (.invert unit) x y x y n] ∧
    (∀ (blank : Framebuffer f) (tx ty : UInt32), blank.HasSpan tx ty n →
      ∃ inverse, (∀ pool, (copySpan (.invert unit) tx ty src sx sy n).outcome pool blank =
        .finished inverse) ∧ inverse.Inverts src unit tx ty sx sy n) ∧
    ∀ (inverse : Framebuffer f) (tx ty : UInt32), inverse.Inverts src unit tx ty sx sy n →
      InParts fb True (.copySpan (.bitwise unit .orNot) x y src sx sy n)
        [.copySpan (.bitwise unit .or) x y inverse tx ty n] :=
  ⟨inTurn_invert_invert unit inside, inParts_and unit inside insideSrc,
    fun blank _ _ room => exists_inverts unit blank room insideSrc,
    fun _ _ _ => inParts_orNot inside insideSrc⟩

/-- The lower row of a picture that is stored from the bottom up, with a source of a single row. Its
inverse is kept in a larger picture. -/
theorem bitwise_through_inverse_row :
    let fb : Framebuffer .rgb565 :=
      ⟨⟨2, 2, .bottomUp⟩, #[0x1f, 0xf8, 0xe0, 7, 1, 2, 3, 4], rfl, by decide⟩
    let src : Framebuffer .rgb565 :=
      ⟨⟨3, 1, .topDown⟩, #[9, 9, 0xf0, 0x0f, 0xff, 0], rfl, by decide⟩
    let blank : Framebuffer .rgb565 :=
      ⟨⟨2, 2, .topDown⟩, #[0, 0, 0, 0, 0, 0, 0, 0], rfl, by decide⟩
    (∀ pools, inTurn pools [.copySpanWithin (.invert .word) 0 1 0 1 2,
      .copySpanWithin (.invert .word) 0 1 0 1 2] fb = .finished fb) ∧
    InParts fb True (.copySpan (.bitwise .word .and) 0 1 src 1 0 2)
      [.copySpanWithin (.invert .word) 0 1 0 1 2,
        .copySpan (.bitwise .word .orNot) 0 1 src 1 0 2,
        .copySpanWithin (.invert .word) 0 1 0 1 2] ∧
    ∃ inverse : Framebuffer .rgb565,
      (∀ pool, (copySpan (.invert .word) 0 1 src 1 0 2).outcome pool blank =
        .finished inverse) ∧
      InParts fb True (.copySpan (.bitwise .word .orNot) 0 1 src 1 0 2)
        [.copySpan (.bitwise .word .or) 0 1 inverse 0 1 2] := by
  intro fb src blank
  obtain ⟨twice, between, made, drawn⟩ :=
    bitwise_through_inverse fb src .word 0 1 1 0 2 (by decide) (by decide)
  obtain ⟨inverse, copied, inverts⟩ := made blank 0 1 (by decide)
  exact ⟨twice, between, inverse, copied, drawn inverse 0 1 inverts⟩

end Drawing

end Raster
