import Raster.Proofs.Table
import Raster.Proofs.Tiles
/-!
# Keyed pictures

In a picture that is drawn with a key, the pixels of the key color are holes: what lies below
stays as it is. Pictures of one size may be laid one upon the other on a band (`Layer.stack`), and
all that matters of them in a pixel is the colors that they have there, in turn
(`Operation.stacked`). On that rest two ways to prepare a picture before it is drawn.

* A stack of keyed pictures can be flattened. The upper ones are drawn over the first one, and what
  comes of it is drawn in place of them all (`layers_flatten`). Where all of them have a hole, that
  has one, because the key color of the first one is still there. It rests on nothing but that keyed
  drawing is associative (`associative_keyed`).
* A picture can be inverted. The holes of the inverse have the inverse of the key color and no
  other pixel has, so that with this key it is drawn as the picture itself, one of the two being
  inverted on the way (`keyed_through_inverse`).

Neither the orders of rows nor the pools and settings show in the result.
-/

namespace Raster

variable {f s s' : PixelFormat}

/-! ### Pictures in a stack -/

/-- What becomes of a color under the pixels that pictures have in one place. -/
def Operation.stacked (op : Operation f s) (pictures : List (Framebuffer s)) (x y : Nat)
    (d : Color f) : Color f :=
  (pictures.map fun picture => picture.color x y).foldl op.result d

@[simp] theorem Operation.stacked_singleton (op : Operation f s) (picture : Framebuffer s)
    (x y : Nat) (d : Color f) :
    op.stacked [picture] x y d = op.result d (picture.color x y) := rfl

namespace Layer

/-- The pixels of pictures from column `sx` of row `sy` on, drawn onto a band one after the
other. -/
def stack (op : Operation f s) (band : Band) (pictures : List (Framebuffer s)) (sx sy : Nat) :
    Layer f where
  band := band
  change := fun x y d =>
    op.stacked pictures (sx + (x - band.x.toNat)) (sy + (y - band.y.toNat)) d

theorem paintAll_copies (op : Operation f s) (band : Band) (pictures : List (Framebuffer s))
    (sx sy : Nat) :
    paintAll (pictures.map fun picture => copy op band picture sx sy) =
      (stack op band pictures sx sy).paint := by
  refine paintAll_of_band ?_ ?_
  · rw [List.forall_mem_map]
    exact fun _ _ => rfl
  · intro x y _ d
    simp only [List.foldl_map, stack, Operation.stacked]
    rfl

end Layer

/-- Drawn onto the whole of a picture of their size, a stack meets every pixel in its own place. -/
theorem Framebuffer.color_stack (fb : Framebuffer f) (op : Operation f s) {g : Geometry}
    (pictures : List (Framebuffer s)) (width : fb.width = g.width) (height : fb.height = g.height)
    {x y : Nat} (hx : x < g.width.toNat) (hy : y < g.height.toNat) :
    (fb.mapPixels (Layer.stack op g.fullBand pictures 0 0).paint).color x y =
      op.stacked pictures x y (fb.color x y) := by
  have here : (Layer.stack op g.fullBand pictures 0 0).band.Contains x y :=
    Geometry.contains_fullBand hx hy
  rw [fb.color_mapPixels _ (width ▸ hx) (height ▸ hy), Layer.paint_of_contains here]
  simp only [Layer.stack, Geometry.fullBand, UInt32.toNat_zero, Nat.zero_add, Nat.sub_zero]

namespace Drawing

/-- Requests to copy pictures onto a band, one after the other, each with a setting of its own. -/
def copies (op : Operation f s) (band : Band) (pictures : List (Framebuffer s)) (sx sy : UInt32)
    (settings : Nat → Threading) : List (Drawing f) :=
  pictures.mapIdx fun i picture => .copyRows op band picture sx sy (settings i)

variable {g : Geometry} {fb : Framebuffer f} {band : Band} {sx sy : UInt32}

/-- They come to a stack, if all of the settings or none of them have threads. -/
theorem manned_copies {threads : Prop} (op : Operation f s) {pictures : List (Framebuffer s)}
    {settings : Nat → Threading} (fits : band.Fits g.width g.height)
    (fitsSrc : ∀ picture ∈ pictures, (band.movedTo sx sy).Fits picture.width picture.height)
    (alike : ∀ i, (settings i).threads ≠ some 0 ↔ threads) :
    List.Forall₂ (fun drawing layer => drawing.Manned g threads layer)
      (copies op band pictures sx sy settings)
      (pictures.map fun picture => .copy op band picture sx.toNat sy.toNat) := by
  induction pictures generalizing settings with
  | nil => exact .nil
  | cons picture pictures ih =>
      rw [List.forall_mem_cons] at fitsSrc
      have first := manned_copyRows op (settings 0) fits fitsSrc.1
      rw [alike 0] at first
      rw [copies, List.mapIdx_cons]
      exact .cons first (ih fitsSrc.2 fun i => alike (i + 1))

/-- If there are threads, nothing is refused. -/
theorem inTurn_copies (op : Operation f s) {pictures : List (Framebuffer s)}
    {settings : Nat → Threading} (fits : band.Fits fb.width fb.height)
    (fitsSrc : ∀ picture ∈ pictures, (band.movedTo sx sy).Fits picture.width picture.height)
    (manned : ∀ i, (settings i).threads ≠ some 0) (pools : Nat → Pool) :
    inTurn pools (copies op band pictures sx sy settings) fb = .finished
      (fb.mapPixels (Layer.stack op band pictures sx.toNat sy.toNat).paint) := by
  have granted := manned_copies op fits fitsSrc fun i => iff_true_intro (manned i)
  rw [← Layer.paintAll_copies]
  exact inTurn_eq_mapPixels (granted.imp fun _ _ h => h.answers trivial) pools fb rfl

/-- Pictures that have the same effect as one in every pixel of it can be drawn in its place. -/
theorem inParts_of_copies {op : Operation f s} {op' : Operation f s'} {picture : Framebuffer s}
    {pictures : List (Framebuffer s')} {threading : Threading} {settings : Nat → Threading}
    (fits : band.Fits fb.width fb.height)
    (fitsSrc : (band.movedTo sx sy).Fits picture.width picture.height)
    (sizes : ∀ other ∈ pictures, other.width = picture.width ∧ other.height = picture.height)
    (alike : ∀ i, (settings i).threads = some 0 ↔ threading.threads = some 0)
    (same : ∀ x y, x < picture.width.toNat → y < picture.height.toNat → ∀ d,
      op'.stacked pictures x y d = op.result d (picture.color x y)) :
    InParts fb (threading.threads ≠ some 0) (.copyRows op band picture sx sy threading)
      (copies op' band pictures sx sy settings) := by
  have fitsAll : ∀ other ∈ pictures, (band.movedTo sx sy).Fits other.width other.height := by
    intro other mem
    rw [(sizes other mem).1, (sizes other mem).2]
    exact fitsSrc
  have parts := manned_copies op' fits fitsAll fun i => not_congr (alike i)
  refine inParts_of_layers (manned_copyRows op threading fits fitsSrc) parts ?_
  intro x y d _ _
  rw [Layer.paintAll_copies]
  by_cases here : band.Contains x y
  · have column : sx.toNat + band.width.toNat ≤ picture.width.toNat := fitsSrc.1
    have row : sy.toNat + band.height.toNat ≤ picture.height.toNat := fitsSrc.2
    obtain ⟨⟨left, right⟩, top, bottom⟩ := here
    rw [Layer.paint_of_contains ⟨⟨left, right⟩, top, bottom⟩,
      Layer.paint_of_contains ⟨⟨left, right⟩, top, bottom⟩]
    exact same _ _ (by omega) (by omega) d
  · rw [Layer.paint_of_not_contains here, Layer.paint_of_not_contains here]

end Drawing

/-! ### Keyed colors -/

namespace Operation

theorem result_keyed (key d c : Color f) : (keyed key).result d c = if c = key then d else c :=
  (keyed key).draws_result d c

theorem result_keyedInvert (key d c : Color f) :
    (keyedInvert key).result d c = if c = key then d else c.complement .word := by
  have drawn : if c = key then (keyedInvert key).result d c = d
      else ((keyedInvert key).result d c).toWord = ~~~ c.toWord :=
    (keyedInvert key).draws_result d c
  by_cases hole : c = key
  · rw [if_pos hole] at drawn ⊢
    exact drawn
  · rw [if_neg hole, ← c.toWord_complement .word] at drawn
    rw [if_neg hole]
    exact Color.toWord_inj.mp drawn

/-- Two colors drawn one after the other may as well be drawn over each other first. Where both are
holes, so is the one that comes of them. -/
instance associative_keyed (key : Color f) : Std.Associative (keyed key).result where
  assoc := by
    intro d c c'
    simp only [result_keyed]
    by_cases hole : c' = key
    · rw [if_pos hole, if_pos hole]
    · rw [if_neg hole, if_neg hole, if_neg hole]

/-- With an operation that is associative, the first picture takes up the others. -/
theorem stacked_cons_of_assoc (op : Operation f f) [Std.Associative op.result]
    (first : Framebuffer f) (rest : List (Framebuffer f)) (x y : Nat) (d : Color f) :
    op.stacked (first :: rest) x y d = op.result d (op.stacked rest x y (first.color x y)) := by
  rw [stacked, List.map_cons, List.foldl_cons, List.foldl_assoc]
  rfl

/-- The inverse of a color is a hole for the inverse of the key exactly if the color is one for
the key. -/
theorem result_keyed_complement (key d c : Color f) :
    (keyed (key.complement .word)).result d (c.complement .word) =
      (keyedInvert key).result d c := by
  rw [result_keyed, result_keyedInvert]
  simp only [Color.complement_inj]

theorem result_keyedInvert_complement (key d c : Color f) :
    (keyedInvert (key.complement .word)).result d (c.complement .word) =
      (keyed key).result d c := by
  rw [result_keyed, result_keyedInvert]
  simp only [Color.complement_inj, Color.complement_complement]

end Operation

/-! ### Prepared pictures -/

namespace Drawing

/-- The whole of a picture is copied, inverted, into another one of its size. That is the inverse.
Drawn with the inverse of a key, it leaves the bytes that are left if the picture is drawn inverted
with the key; drawn inverted with the inverse of the key, it leaves those that are left if the
picture is drawn with the key. That holds on all pools and with all settings; only must there be
threads for the inverse to be made, and the band is refused either for both pictures or for
none. -/
theorem keyed_through_inverse (blank src : Framebuffer f) (width : blank.width = src.width)
    (height : blank.height = src.height) :
    ∃ inverse : Framebuffer f,
      (∀ pool threading, threading.threads ≠ some 0 →
        (copyRows (.invert .word) src.fullBand src 0 0 threading).outcome pool blank =
          .finished inverse) ∧
      ∀ (key : Color f) (fb : Framebuffer f) (band : Band) (sx sy : UInt32)
        (threading setting : Threading), band.Fits fb.width fb.height →
        (band.movedTo sx sy).Fits src.width src.height →
        (setting.threads = some 0 ↔ threading.threads = some 0) →
        InParts fb (threading.threads ≠ some 0)
          (.copyRows (.keyedInvert key) band src sx sy threading)
          [.copyRows (.keyed (key.complement .word)) band inverse sx sy setting] ∧
        InParts fb (threading.threads ≠ some 0)
          (.copyRows (.keyed key) band src sx sy threading)
          [.copyRows (.keyedInvert (key.complement .word)) band inverse sx sy setting] := by
  have fitsBlank : src.fullBand.Fits blank.width blank.height := by
    rw [width, height]
    exact src.fullBand_fits
  let inverse : Framebuffer f :=
    blank.mapPixels (Layer.stack (.invert .word) src.fullBand [src] 0 0).paint
  have inverted : ∀ x y, x < src.width.toNat → y < src.height.toNat →
      inverse.color x y = (src.color x y).complement .word :=
    fun x y hx hy => blank.color_stack (.invert .word) [src] width height hx hy
  refine ⟨inverse, ?_, ?_⟩
  · intro pool threading manned
    exact (manned_copyRows (.invert .word) threading fitsBlank src.fullBand_fits).answers manned
      pool blank rfl
  intro key fb band sx sy threading setting fits fitsSrc alike
  have sizes : ∀ other ∈ [inverse], other.width = src.width ∧ other.height = src.height :=
    List.forall_mem_singleton.mpr ⟨width, height⟩
  constructor
  · refine inParts_of_copies fits fitsSrc sizes (fun _ => alike) ?_
    intro x y hx hy d
    rw [Operation.stacked_singleton, inverted x y hx hy, Operation.result_keyed_complement]
  · refine inParts_of_copies fits fitsSrc sizes (fun _ => alike) ?_
    intro x y hx hy d
    rw [Operation.stacked_singleton, inverted x y hx hy, Operation.result_keyedInvert_complement]

/-- The lower row of a picture that is stored from the bottom up. There, the color beside the key is
that of its inverse. -/
theorem keyed_through_inverse_sprite :
    let src : Framebuffer .rgb565 :=
      ⟨⟨2, 2, .bottomUp⟩, #[0x1f, 0xf8, 0xe0, 7, 1, 2, 3, 4], rfl, by decide⟩
    let blank : Framebuffer .rgb565 :=
      ⟨⟨2, 2, .topDown⟩, #[0, 0, 0, 0, 0, 0, 0, 0], rfl, by decide⟩
    let fb : Framebuffer .rgb565 := ⟨⟨3, 1, .topDown⟩, #[1, 2, 3, 4, 5, 6], rfl, by decide⟩
    let key : Color .rgb565 := .rgb565 0xf81f
    let threading : Threading := ⟨true, some 2, 1⟩
    let setting : Threading := ⟨false, none, 16⟩
    ∃ inverse : Framebuffer .rgb565,
      (∀ pool,
        (copyRows (.invert .word) src.fullBand src 0 0 threading).outcome pool blank =
          .finished inverse) ∧
      InParts fb (threading.threads ≠ some 0)
        (.copyRows (.keyedInvert key) ⟨1, 0, 2, 1⟩ src 0 1 threading)
        [.copyRows (.keyed (key.complement .word)) ⟨1, 0, 2, 1⟩ inverse 0 1 setting] ∧
      InParts fb (threading.threads ≠ some 0)
        (.copyRows (.keyed key) ⟨1, 0, 2, 1⟩ src 0 1 threading)
        [.copyRows (.keyedInvert (key.complement .word)) ⟨1, 0, 2, 1⟩ inverse 0 1 setting] := by
  intro src blank fb key threading setting
  obtain ⟨inverse, made, drawn⟩ := keyed_through_inverse blank src rfl rfl
  exact ⟨inverse, fun pool => made pool threading (by decide),
    drawn key fb ⟨1, 0, 2, 1⟩ 0 1 threading setting (by decide) (by decide) (by decide)⟩

/-- Keyed pictures of one size are drawn onto a band one after the other. If instead all but the
first are drawn over the whole of the first one, and what comes of it is then drawn onto the band
with the same key, the same bytes are left. That holds on all pools and with all settings; only
must there be threads for the first picture to be drawn over, and the band is refused either for
all the pictures or for none. -/
theorem layers_flatten (key : Color f) (first : Framebuffer f) (rest : List (Framebuffer f))
    (sizes : ∀ picture ∈ rest, picture.width = first.width ∧ picture.height = first.height) :
    ∃ flat : Framebuffer f,
      (∀ pools settings, (∀ i, (settings i).threads ≠ some 0) →
        inTurn pools (copies (.keyed key) first.fullBand rest 0 0 settings) first =
          .finished flat) ∧
      ∀ (fb : Framebuffer f) (band : Band) (sx sy : UInt32) (threading : Threading)
        (settings : Nat → Threading), band.Fits fb.width fb.height →
        (band.movedTo sx sy).Fits first.width first.height →
        (∀ i, (settings i).threads = some 0 ↔ threading.threads = some 0) →
        InParts fb (threading.threads ≠ some 0)
          (.copyRows (.keyed key) band flat sx sy threading)
          (copies (.keyed key) band (first :: rest) sx sy settings) := by
  have fitsRest : ∀ picture ∈ rest,
      (first.fullBand.movedTo 0 0).Fits picture.width picture.height := by
    intro picture mem
    rw [(sizes picture mem).1, (sizes picture mem).2]
    exact first.fullBand_fits
  refine ⟨_, fun pools settings manned =>
    inTurn_copies (.keyed key) first.fullBand_fits fitsRest manned pools, ?_⟩
  intro fb band sx sy threading settings fits fitsSrc alike
  refine inParts_of_copies fits fitsSrc (List.forall_mem_cons.mpr ⟨⟨rfl, rfl⟩, sizes⟩) alike ?_
  intro x y hx hy d
  have flattened := first.color_stack (.keyed key) rest rfl rfl hx hy
  rw [Operation.stacked_cons_of_assoc, ← flattened]
  rfl

/-- Three pictures of four pixels, of which the second one is stored from the bottom up. All of
them have a hole in the upper left corner; the first one has another, which is filled. -/
theorem layers_flatten_three :
    let first : Framebuffer .gray8 := ⟨⟨2, 2, .topDown⟩, #[0, 1, 2, 0], rfl, by decide⟩
    let rest : List (Framebuffer .gray8) :=
      [⟨⟨2, 2, .bottomUp⟩, #[3, 4, 0, 0], rfl, by decide⟩,
        ⟨⟨2, 2, .topDown⟩, #[0, 5, 6, 0], rfl, by decide⟩]
    let fb : Framebuffer .gray8 := ⟨⟨3, 2, .bottomUp⟩, #[9, 9, 9, 9, 9, 9], rfl, by decide⟩
    let key : Color .gray8 := .gray 0
    let threading : Threading := ⟨true, some 2, 1⟩
    let settings : Nat → Threading := fun i => ⟨false, none, .ofNat (i + 1)⟩
    ∃ flat : Framebuffer .gray8,
      (∀ pools, inTurn pools (copies (.keyed key) first.fullBand rest 0 0 settings) first =
        .finished flat) ∧
      InParts fb (threading.threads ≠ some 0)
        (.copyRows (.keyed key) ⟨1, 0, 2, 2⟩ flat 0 0 threading)
        (copies (.keyed key) ⟨1, 0, 2, 2⟩ (first :: rest) 0 0 settings) := by
  intro first rest fb key threading settings
  have unset : ∀ i, (settings i).threads = none := fun _ => rfl
  obtain ⟨flat, made, drawn⟩ := layers_flatten key first rest (by decide)
  refine ⟨flat, fun pools => made pools settings ?_, ?_⟩
  · simp [unset]
  · refine drawn fb ⟨1, 0, 2, 2⟩ 0 0 threading settings (by decide) (by decide) ?_
    simp [unset, threading]

end Drawing

end Raster
