import Raster.Proofs.Tiles
/-!
# Coverage

A mask can be drawn as a gradient, which takes each coverage for a point on the way between two
colors and does not look at the destination, or as ink, which moves the destination toward one
color by the coverage. And a color can be blended in with one weight for all pixels. The three are
the same motion, `lerp` on every channel, and differ only in where its ends and its weight come
from:

* a gradient is its upper end inked on a ground of its lower end (`result_gradient`);
* ink of one coverage is the ink blended in with that coverage as the weight (`result_ink`).

So a gradient over a span is two requests in turn, and ink over a span where the mask is even is
one fill (`coverages_agree`). The mask is read again by the second request, and what the first one
has drawn in the meantime is in another picture.
-/

namespace Raster

variable {f : PixelFormat}

namespace Operation

/-- A gradient leaves nothing of the destination, and neither does a ground of one color. -/
theorem result_gradient (low high d : Color f) (c : Color .gray8) :
    (gradient low high).result d c = (ink high).result (copy.result d low) c := rfl

/-- To ink a color is to move it toward the ink, as a blend does. -/
theorem result_ink (color d : Color f) (coverage : UInt8) :
    (ink color).result d (.gray coverage) = (blend coverage).result d color := rfl

end Operation

namespace Drawing

variable {fb : Framebuffer f} {mask : Framebuffer .gray8} {x y sx sy n : UInt32}

theorem inParts_gradient (low high : Color f) (inside : fb.HasSpan x y n)
    (insideMask : mask.HasSpan sx sy n) :
    InParts fb True (.copySpan (.gradient low high) x y mask sx sy n)
      [.fillSpan .copy x y n low, .copySpan (.ink high) x y mask sx sy n] := by
  have ground := manned_fillSpan .copy low inside
  have inked := manned_copySpan (.ink high) inside insideMask
  refine inParts_of_layers (manned_copySpan _ inside insideMask)
    (.cons ground (.cons inked .nil)) ?_
  intro X Y d _ _
  rw [Layer.paintAll_of_band]
  · exact List.forall_mem_cons.mpr ⟨rfl, List.forall_mem_singleton.mpr rfl⟩
  · intro X Y _ d
    exact (Operation.result_gradient low high d _).symm

theorem inParts_ink (color : Color f) {coverage : UInt8} (inside : fb.HasSpan x y n)
    (insideMask : mask.HasSpan sx sy n)
    (even : ∀ i < n.toNat, mask.pixel? (sx.toNat + i) sy.toNat = some (.gray coverage)) :
    InParts fb True (.copySpan (.ink color) x y mask sx sy n)
      [.fillSpan (.blend coverage) x y n color] := by
  have blended := manned_fillSpan (.blend coverage) color inside
  refine inParts_of_layers (manned_copySpan _ inside insideMask) (.cons blended .nil) ?_
  intro X Y d _ _
  rw [Layer.paintAll_of_band]
  · exact List.forall_mem_singleton.mpr rfl
  · intro X Y within d
    obtain ⟨rfl, low, high⟩ := Band.contains_ofSpan.mp within
    have source : mask.color (sx.toNat + (X - x.toNat)) sy.toNat = .gray coverage := by
      rw [Framebuffer.color, even _ (by omega), Option.getD_some]
    rw [Layer.change_copy_ofSpan, source]
    exact (Operation.result_ink color d coverage).symm

/-- A mask drawn over a span as a gradient leaves the bytes that are left if the span is first
filled with the lower end of the gradient and the mask is then drawn in ink of the upper end. A mask
that has the same coverage all over the span, drawn in ink, leaves the bytes that are left if the
ink is blended in with this coverage as its weight. All these requests are granted. -/
theorem coverages_agree (fb : Framebuffer f) (mask : Framebuffer .gray8)
    (low high color : Color f) (coverage : UInt8) (x y sx sy n : UInt32)
    (inside : fb.HasSpan x y n) (insideMask : mask.HasSpan sx sy n) :
    InParts fb True (.copySpan (.gradient low high) x y mask sx sy n)
      [.fillSpan .copy x y n low, .copySpan (.ink high) x y mask sx sy n] ∧
    ((∀ i < n.toNat, mask.pixel? (sx.toNat + i) sy.toNat = some (.gray coverage)) →
      InParts fb True (.copySpan (.ink color) x y mask sx sy n)
        [.fillSpan (.blend coverage) x y n color]) :=
  ⟨inParts_gradient low high inside insideMask, inParts_ink color inside insideMask⟩

/-- Two pixels of a row that is stored from the bottom up, under a mask that is even only there. -/
theorem coverages_agree_mask :
    let fb : Framebuffer .rgb565 :=
      ⟨⟨2, 2, .bottomUp⟩, #[1, 2, 3, 4, 5, 6, 7, 8], rfl, by decide⟩
    let mask : Framebuffer .gray8 := ⟨⟨3, 1, .topDown⟩, #[9, 200, 200], rfl, by decide⟩
    let low : Color .rgb565 := .rgb565 0x001f
    let high : Color .rgb565 := .rgb565 0xf800
    InParts fb True (.copySpan (.gradient low high) 0 1 mask 1 0 2)
      [.fillSpan .copy 0 1 2 low, .copySpan (.ink high) 0 1 mask 1 0 2] ∧
    InParts fb True (.copySpan (.ink high) 0 1 mask 1 0 2)
      [.fillSpan (.blend 200) 0 1 2 high] := by
  intro fb mask low high
  have law := coverages_agree fb mask low high high 200 0 1 1 0 2 (by decide) (by decide)
  refine ⟨law.1, law.2 ?_⟩
  decide

end Drawing

end Raster
