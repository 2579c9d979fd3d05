import Raster.Operation.Span
import Raster.Proofs.Table
/-!
# Words or channels

A bitwise operation takes the whole pixel as its unit, or each channel as a sample of eight bits.
The fields of `rgb565` are narrower than that. A complement of such a sample sets bits for which
its field has no room, and they have to be gone when the color is put together again, or they
would end up in the field beside it. They are (`toWord_complement`, `toWord_bitwise`), and so the
unit makes no difference to a color (`complement_channel`, `bitwise_channel`).

Where two operations skip the same sources and agree on all colors (`Operation.Agrees`), no run of
the one can be told from the same run of the other: it leaves the same bytes, and it stops at the
same place for the same cause (`Operation.SameRuns`). `units_agree` says this of the two units.
-/

namespace Raster

variable {f s : PixelFormat}

namespace Color

theorem complement_channel (c : Color f) : c.complement .channel = c.complement .word := by
  refine toWord_inj.mp ?_
  rw [toWord_complement, toWord_complement]

theorem bitwise_channel (op : BitwiseOp) (d c : Color f) :
    bitwise .channel op d c = bitwise .word op d c := by
  refine toWord_inj.mp ?_
  rw [toWord_bitwise, toWord_bitwise]

/-- Five bits of red are clear. The complement sets them, and three more that are dropped. -/
example : ~~~Rgb565.red 0x07ff = 0xff ∧
    (rgb565 0x07ff).complement .channel = rgb565 0xf800 := by decide

end Color

namespace Operation

/-- The operations skip the same sources, and make the same color of every destination for every
source. -/
structure Agrees (op op' : Operation f s) : Prop where
  skips : ∀ c, op.skips c = op'.skips c
  combine : ∀ d c, op.combine d c = op'.combine d c

/-- Every fill and every copy comes to the same with the two operations, be it finished or
stopped. -/
structure SameRuns (op op' : Operation f s) : Prop where
  fill : ∀ b start n c, op.fillPixels b start n c = op'.fillPixels b start n c
  copy : ∀ b start src source n,
    op.copyPixels b start src source n = op'.copyPixels b start src source n
  copyWithin : ∀ b start source n,
    op.copyPixelsWithin b start source n = op'.copyPixelsWithin b start source n

variable {op op' : Operation f s}

theorem Agrees.put_eq (h : op.Agrees op') : op.put = op'.put := by
  funext l c b
  simp only [put, combine?_eq_ok, h.skips, h.combine]

theorem Agrees.putFrom_eq (h : op.Agrees op') : op.putFrom = op'.putFrom := by
  funext src source l b
  rw [putFrom, putFrom, h.put_eq]

/-- All runs are sweeps of these steps. -/
theorem Agrees.sameRuns (h : op.Agrees op') : op.SameRuns op' where
  fill := by
    intro b start n c
    rw [fillPixels_eq_sweep, fillPixels_eq_sweep, h.put_eq]
  copy := by
    intro b start src source n
    rw [copyPixels, copyPixels, h.putFrom_eq]
  copyWithin := by
    intro b start source n
    rw [copyPixelsWithin, copyPixelsWithin, h.putFrom_eq]

/-- A complement and a bitwise combination are the same colors whether they are taken of the words
or of the channels of a pixel. Drawn with either, every span in every buffer is left with the same
bytes, and stops where it stops with the other. -/
theorem units_agree (f : PixelFormat) :
    (∀ c : Color f, c.complement .channel = c.complement .word) ∧
    (∀ op (d c : Color f), Color.bitwise .channel op d c = Color.bitwise .word op d c) ∧
    (invert .channel : Operation f f).SameRuns (invert .word) ∧
    ∀ op, (bitwise .channel op : Operation f f).SameRuns (bitwise .word op) := by
  refine ⟨Color.complement_channel, Color.bitwise_channel, ?_, fun op => ?_⟩
  · have agrees : (invert .channel : Operation f f).Agrees (invert .word) :=
      ⟨fun _ => rfl, fun _ c => c.complement_channel⟩
    exact agrees.sameRuns
  · have agrees : (bitwise .channel op : Operation f f).Agrees (bitwise .word op) :=
      ⟨fun _ => rfl, Color.bitwise_channel op⟩
    exact agrees.sameRuns

end Operation

end Raster
