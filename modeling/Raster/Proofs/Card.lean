import Raster.Proofs.RowOrder
import Raster.Proofs.Sheets
import Raster.Proofs.Table
/-!
# What a test card shows

A test card is twelve strokes, some of them with sheets that are drawn for it. What comes of them
is said here pixel by pixel (`TestCard.shade`): by the band that the row belongs to, the column,
and for the glyphs the cell.

* the ground is under everything, and then each pixel is in one band only
  (`TestCard.contains_band`), so just one stroke goes over it;
* what this stroke makes of the ground is read off the list of strokes, with what the sheets show
  (`TestCard.change_stroke`).

`TestCard.drawOnPools_shows` puts this together. Neither the order of the rows nor the setting has
a part in it, and so the picture is the same for all of them.
-/

namespace Raster

variable {f : PixelFormat}

namespace TestCard

/-- Sizes that a card can have: there is a row for each band, and memory for four bytes a pixel. -/
structure Drawable (width height : UInt32) : Prop where
  columns : 1 ≤ width.toNat
  rows : 11 ≤ height.toNat
  memory : 4 * width.toNat * height.toNat ≤ maxAllocation

/-! ### Shades -/

/-- The coverage in a column, in parts of 255. -/
def coverageAt (width x : Nat) : Nat := 255 * x / max (width - 1) 1

/-- The sprite in a column: a block in the middle, and the key color beside it. -/
def spriteAt (f : PixelFormat) (width x : Nat) : Color f :=
  if width / 4 ≤ x ∧ x < width / 4 + width / 2 then .ofRgb f 60 180 90 else .ofRgb f 255 0 255

/-- A color moved toward another, channel by channel. -/
def moved (a b : Color f) (weight : Nat) : Color f :=
  Color.zipChannels (Sample.lerp · · (.ofNat weight)) a b

/-- The color of a pixel of the `i`-th band. -/
def bandShade (f : PixelFormat) (width i x y : Nat) : Color f :=
  let base : Color f := .ofRgb f 40 44 56
  let sprite := spriteAt f width x
  match i with
  | 0 => .ofRgb f 230 230 230
  | 1 => .ofWord (~~~ sprite.toWord)
  | 2 => .ofWord (base.toWord ||| (Color.ofRgb f 0 0 160).toWord)
  | 3 => .ofWord (base.toWord &&& (Color.ofRgb f 255 96 0).toWord)
  | 4 => .ofWord (base.toWord ||| ~~~ (Color.ofRgb f 0 255 255).toWord)
  | 5 => moved base (.ofRgb f 220 40 40) 128
  | 6 => moved base (.ofRgb f 250 210 60) (coverageAt width x)
  | 7 => moved (.ofRgb f 0 40 120) (.ofRgb f 255 255 255) (coverageAt width x)
  | 8 => if (x / 4 + y / 4) % 2 = 1 then .ofRgb f 20 20 20 else .ofRgb f 250 250 240
  | 9 => if sprite = .ofRgb f 255 0 255 then base else sprite
  | _ => if sprite = .ofRgb f 255 0 255 then base else .ofWord (~~~ sprite.toWord)

/-- The band that a row belongs to. -/
def bandOfRow (height y : Nat) : Nat := min (y / (height / 11)) 10

/-- The color of a pixel of the card. -/
def shade (f : PixelFormat) (width height x y : Nat) : Color f :=
  bandShade f width (bandOfRow height y) x y

/-! ### Bands -/

section Bands

variable {width height : UInt32} {i : Nat}

theorem toNat_band (width height : UInt32) (hi : i < bandCount) :
    (band width height i).y.toNat = i * (height.toNat / bandCount) ∧
      (band width height i).height.toNat = if i + 1 = bandCount then
        height.toNat - i * (height.toNat / bandCount) else height.toNat / bandCount := by
  have size := height.toNat_lt_size
  have above : i * (height.toNat / bandCount) ≤ height.toNat :=
    Nat.le_trans (Nat.mul_le_mul_right _ (Nat.le_of_lt hi)) (Nat.mul_div_le ..)
  have rows : height.toNat / bandCount ≤ height.toNat := Nat.div_le_self ..
  refine ⟨UInt32.toNat_ofNat_of_lt' (by omega), UInt32.toNat_ofNat_of_lt' ?_⟩
  by_cases last : i + 1 = bandCount
  · rw [if_pos last]
    omega
  · rw [if_neg last]
    omega

theorem band_fits (hi : i < bandCount) : (band width height i).Fits width height := by
  obtain ⟨top, count⟩ := toNat_band width height hi
  have next : (i + 1) * (height.toNat / bandCount) ≤ height.toNat :=
    Nat.le_trans (Nat.mul_le_mul_right _ hi) (Nat.mul_div_le ..)
  rw [Nat.succ_mul] at next
  refine ⟨Nat.le_of_eq (Nat.zero_add _), ?_⟩
  rw [top, count]
  by_cases last : i + 1 = bandCount
  · rw [if_pos last]
    exact Nat.le_of_eq (Nat.add_sub_of_le (Nat.le_trans (Nat.le_add_right ..) next))
  · rw [if_neg last]
    exact next

/-- The bands part the rows: each pixel is in the band of its row and in no other. -/
theorem contains_band (rows : bandCount ≤ height.toNat) (hi : i < bandCount) {x y : Nat}
    (hx : x < width.toNat) (hy : y < height.toNat) :
    (band width height i).Contains x y ↔ i = bandOfRow height.toNat y := by
  obtain ⟨top, count⟩ := toNat_band width height hi
  have pos : 0 < height.toNat / bandCount := Nat.div_pos rows (by decide)
  have columns : (band width height i).x.toNat ≤ x ∧
      x < (band width height i).x.toNat + (band width height i).width.toNat :=
    ⟨Nat.zero_le x, Nat.lt_of_lt_of_eq hx (Nat.zero_add _).symm⟩
  -- The rows of a band are those that start at it and not at the next one.
  have low : i * (height.toNat / bandCount) ≤ y ↔ i ≤ y / (height.toNat / bandCount) :=
    (Nat.le_div_iff_mul_le pos).symm
  have high : y < i * (height.toNat / bandCount) + height.toNat / bandCount ↔
      y / (height.toNat / bandCount) < i + 1 := by
    rw [← Nat.succ_mul, Nat.div_lt_iff_lt_mul pos]
  rw [Band.Contains, and_iff_right columns, top, count, low, bandOfRow]
  by_cases last : i + 1 = bandCount
  · have below : y < i * (height.toNat / bandCount) +
        (height.toNat - i * (height.toNat / bandCount)) := by omega
    rw [if_pos last, and_iff_left below]
    simp only [bandCount] at last ⊢
    omega
  · rw [if_neg last, high]
    simp only [bandCount] at hi last ⊢
    omega

end Bands

/-! ### Coverage -/

theorem coverageAt_le {width x : Nat} (hx : x < width) : coverageAt width x ≤ 255 := by
  refine Nat.div_le_of_le_mul ?_
  have last : x ≤ max (width - 1) 1 := by omega
  rw [Nat.mul_comm]
  exact Nat.mul_le_mul_right 255 last

theorem coverageAt_mono {width x x' : Nat} (h : x' ≤ x) :
    coverageAt width x' ≤ coverageAt width x :=
  Nat.div_le_div_right (Nat.mul_le_mul_left 255 h)

theorem coverage_eq (width x : Nat) : Sheet.coverage width x = .ofNat (coverageAt width x) := by
  rw [Sheet.coverage, coverageAt, Nat.mul_comm]

/-! ### Strokes -/

/-- Sheets of this size that show what they should. -/
structure Sheets.Shown (sheets : Sheets f) (width height : UInt32) : Prop where
  ramp : sheets.ramp.Shows ⟨width, height, .topDown⟩ fun x _ =>
    .gray (Sheet.coverage width.toNat x)
  glyphs : sheets.glyphs.Shows ⟨width, height, .topDown⟩ Sheet.boardColor
  sprite : sheets.sprite.Shows ⟨width, height, .topDown⟩ fun x _ =>
    Sheet.spriteColor f width.toNat x

variable {sheets : Sheets f} {width height : UInt32}

/-- What each stroke makes of the ground. -/
theorem change_stroke (shown : sheets.Shown width height) {i x y : Nat} {stroke : Stroke f}
    (there : (strokes sheets)[i]? = some stroke) (hx : x < width.toNat) (hy : y < height.toNat) :
    stroke.change x y (ground f) = bandShade f width.toNat i x y := by
  have ramp : sheets.ramp.color x y = .gray (.ofNat (coverageAt width.toNat x)) := by
    rw [← coverage_eq]
    exact shown.ramp.color hx hy
  have glyph : sheets.glyphs.color x y = Sheet.boardColor x y := shown.glyphs.color hx hy
  have sprite : sheets.sprite.color x y = spriteAt f width.toNat x := shown.sprite.color hx hy
  match i, there with
  | 0, there =>
      obtain rfl := Option.some.inj there
      rfl
  | 1, there =>
      obtain rfl := Option.some.inj there
      simp only [Stroke.change, sprite]
      rfl
  | 2, there =>
      obtain rfl := Option.some.inj there
      rfl
  | 3, there =>
      obtain rfl := Option.some.inj there
      rfl
  | 4, there =>
      obtain rfl := Option.some.inj there
      rfl
  | 5, there =>
      obtain rfl := Option.some.inj there
      rfl
  | 6, there =>
      obtain rfl := Option.some.inj there
      simp only [Stroke.change, ramp]
      rfl
  | 7, there =>
      obtain rfl := Option.some.inj there
      simp only [Stroke.change, ramp]
      rfl
  | 8, there =>
      obtain rfl := Option.some.inj there
      simp only [Stroke.change, glyph]
      show (if (Sheet.boardColor x y).isBlack then _ else _) = if _ then _ else _
      by_cases odd : (x / 4 + y / 4) % 2 = 1
      · have white : Sheet.boardColor x y = .white := if_pos odd
        rw [white, if_pos odd]
        rfl
      · have black : Sheet.boardColor x y = .black := if_neg odd
        rw [black, if_neg odd]
        rfl
  | 9, there =>
      obtain rfl := Option.some.inj there
      simp only [Stroke.change, sprite]
      exact (Operation.keyed (Sheet.keyColor f)).draws_result (ground f) _
  | 10, there =>
      obtain rfl := Option.some.inj there
      simp only [Stroke.change, sprite]
      have drawn := (Operation.keyedInvert (Sheet.keyColor f)).draws_result (ground f)
        (spriteAt f width.toNat x)
      show _ = if spriteAt f width.toNat x = Sheet.keyColor f then ground f else _
      by_cases key : spriteAt f width.toNat x = Sheet.keyColor f
      · rw [Operation.Draws, if_pos key] at drawn
        rw [if_pos key, drawn]
      · rw [Operation.Draws, if_neg key] at drawn
        rw [if_neg key, ← drawn, Color.ofWord_toWord]

/-! ### The card -/

/-- A size that four bytes for each pixel can be allocated for can be allocated in every format. -/
theorem byteLength_le {order : RowOrder}
    (memory : 4 * width.toNat * height.toNat ≤ maxAllocation) :
    (⟨width, height, order⟩ : Geometry).byteLength f ≤ maxAllocation := by
  have bytes := Nat.mul_le_mul_left (width.toNat * height.toNat) f.bytesPerPixel_le
  rw [Nat.mul_assoc, Nat.mul_comm] at memory
  exact Nat.le_trans bytes memory

theorem lt_bandCount {i : Nat} {stroke : Stroke f} (there : (strokes sheets)[i]? = some stroke) :
    i < bandCount := by
  obtain ⟨hi, -⟩ := List.getElem?_eq_some_iff.mp there
  rwa [length_strokes] at hi

/-- The strokes that go to the bands are those of the list, each on the band of its number. -/
theorem getElem?_bandStrokes {i : Nat} {band' : Band} {stroke : Stroke f} :
    ((bands width height).zip (strokes sheets))[i]? = some (band', stroke) ↔
      (strokes sheets)[i]? = some stroke ∧ band' = band width height i := by
  rw [List.getElem?_zip_eq_some, bands, List.getElem?_map]
  constructor
  · rintro ⟨onBand, there⟩
    rw [List.getElem?_range (lt_bandCount there)] at onBand
    exact ⟨there, (Option.some.inj onBand).symm⟩
  · rintro ⟨there, rfl⟩
    rw [List.getElem?_range (lt_bandCount there)]
    exact ⟨rfl, there⟩

theorem strokes_sized (shown : sheets.Shown width height) (order : RowOrder) :
    ∀ stroke ∈ strokes sheets, stroke.Sized ⟨width, height, order⟩ := by
  have ramp := shown.ramp.size
  have glyphs := shown.glyphs.size
  have sprite := shown.sprite.size
  simp only [strokes, List.forall_mem_cons, Stroke.Sized, ramp, glyphs, sprite, and_self, true_and]
  intro stroke none
  cases none

/-- The strokes of a card go to bands of it, and their sheets are of its size. -/
theorem cardStrokes_fit (shown : sheets.Shown width height) (order : RowOrder) (band' : Band)
    (stroke : Stroke f) (mem : (band', stroke) ∈ cardStrokes sheets ⟨width, height, order⟩) :
    band'.Fits width height ∧ stroke.Sized ⟨width, height, order⟩ := by
  rw [cardStrokes, List.mem_cons, Prod.mk.injEq] at mem
  obtain ⟨rfl, rfl⟩ | onBand := mem
  · exact ⟨Geometry.fullBand_fits _, trivial⟩
  · obtain ⟨i, found⟩ := List.mem_iff_getElem?.mp onBand
    obtain ⟨there, rfl⟩ := getElem?_bandStrokes.mp found
    exact ⟨band_fits (lt_bandCount there),
      strokes_sized shown order stroke (List.mem_of_getElem? there)⟩

/-- The layer of a band is its stroke on it. -/
theorem getElem?_bandLayers {i : Nat} {layer : Layer f} :
    (Stroke.layers ((bands width height).zip (strokes sheets)))[i]? = some layer ↔
      ∃ stroke, (strokes sheets)[i]? = some stroke ∧
        layer = Stroke.layer (band width height i) stroke := by
  rw [Stroke.layers, List.getElem?_map, Option.map_eq_some_iff]
  constructor
  · rintro ⟨⟨band', stroke⟩, found, rfl⟩
    obtain ⟨there, rfl⟩ := getElem?_bandStrokes.mp found
    exact ⟨stroke, there, rfl⟩
  · rintro ⟨stroke, there, rfl⟩
    exact ⟨_, getElem?_bandStrokes.mpr ⟨there, rfl⟩, rfl⟩

/-- Of the strokes of the bands only that of its row goes over a pixel. -/
theorem paintAll_bandLayers (sheets : Sheets f) (rows : bandCount ≤ height.toNat) {x y : Nat}
    (d : Color f) (hx : x < width.toNat) (hy : y < height.toNat) :
    ∃ stroke, (strokes sheets)[bandOfRow height.toNat y]? = some stroke ∧
      Layer.paintAll (Stroke.layers ((bands width height).zip (strokes sheets))) x y d =
        stroke.change x y d := by
  have hi : bandOfRow height.toNat y < bandCount := by
    simp only [bandOfRow, bandCount]
    omega
  obtain ⟨stroke, there⟩ : ∃ stroke, (strokes sheets)[bandOfRow height.toNat y]? = some stroke :=
    ⟨_, List.getElem?_eq_getElem (length_strokes sheets ▸ hi)⟩
  refine ⟨stroke, there, Layer.paintAll_of_only (getElem?_bandLayers.mpr ⟨stroke, there, rfl⟩)
    ((contains_band rows hi hx hy).mpr rfl) ?_ d⟩
  intro j other found also
  obtain ⟨stroke', there', rfl⟩ := getElem?_bandLayers.mp found
  exact (contains_band rows (lt_bandCount there') hx hy).mp also

/-- The strokes of a card give each pixel its shade, whatever was there. -/
theorem paintAll_cardStrokes (shown : sheets.Shown width height) (order : RowOrder)
    (rows : bandCount ≤ height.toNat) {x y : Nat} (d : Color f) (hx : x < width.toNat)
    (hy : y < height.toNat) :
    Layer.paintAll (Stroke.layers (cardStrokes sheets ⟨width, height, order⟩)) x y d =
      shade f width.toNat height.toNat x y := by
  have split : Layer.paintAll (Stroke.layers (cardStrokes sheets ⟨width, height, order⟩)) x y d =
      Layer.paintAll (Stroke.layers ((bands width height).zip (strokes sheets))) x y
        ((Stroke.layer (⟨width, height, order⟩ : Geometry).fullBand
          (.fill .copy (ground f))).paint x y d) := rfl
  -- The ground goes under whatever the band of the row is drawn with.
  have under : (Stroke.layer (⟨width, height, order⟩ : Geometry).fullBand
      (.fill .copy (ground f))).paint x y d = ground f :=
    Layer.paint_of_contains (Geometry.contains_fullBand hx hy) d
  obtain ⟨stroke, there, onTop⟩ := paintAll_bandLayers sheets rows (ground f) hx hy
  rw [split, under, onTop]
  exact change_stroke shown there hx hy

/-- Drawn row by row a card is what it is on pools. -/
theorem draw_eq_onPools (spritePools pools : Nat → Pool) (f : PixelFormat) (g : Geometry)
    (threading : Threading) :
    draw f g threading = drawOnPools spritePools pools f g threading := by
  rw [draw, drawOnPools]
  cases made : Framebuffer.blank f g with
  | error e => rfl
  | ok card =>
      have strokes : ∀ sheets, drawOn sheets threading card = (Drawing.inTurn pools
          (Stroke.drawings (cardStrokes sheets g) threading) card).toExcept := by
        intro sheets
        rw [← Stroke.foldlM_draw, cardStrokes, List.foldlM_cons, drawOn, Stroke.drawAll,
          Framebuffer.toGeometry_of_blank made]
      show (do
          let ramp ← Sheet.ramp g.width g.height
          let glyphs ← Sheet.checker g.width g.height
          let sprite ← Sheet.sprite f g.width g.height threading
          drawOn { ramp, glyphs, sprite } threading card) = _
      simp only [strokes, Sheet.sprite_eq_onPools spritePools]
      rfl

/-- A card that fits the memory is drawn, and each pixel of it has its shade. -/
theorem drawOnPools_shows (spritePools pools : Nat → Pool) (f : PixelFormat)
    {width height : UInt32} (order : RowOrder) {threading : Threading}
    (size : Drawable width height) (threads : threading.threads ≠ some 0) :
    ∃ card, drawOnPools spritePools pools f ⟨width, height, order⟩ threading = .ok card ∧
      card.Shows ⟨width, height, order⟩ (shade f width.toNat height.toNat) := by
  have memory := size.memory
  have pixels : width.toNat * height.toNat ≤ maxAllocation := by
    rw [Nat.mul_assoc] at memory
    omega
  have bytes : (⟨width, height, order⟩ : Geometry).byteLength f ≤ maxAllocation :=
    byteLength_le memory
  obtain ⟨blank, made, geometry, -⟩ := Framebuffer.blank_of_le bytes
  obtain ⟨ramp, madeRamp, showsRamp⟩ := Sheet.ramp_shows pixels
  obtain ⟨glyphs, madeGlyphs, showsGlyphs⟩ := Sheet.checker_shows pixels
  obtain ⟨sprite, madeSprite, showsSprite⟩ :=
    Sheet.spriteOnPools_shows spritePools f (byteLength_le memory) threads
  have shown : Sheets.Shown { ramp, glyphs, sprite } width height :=
    ⟨showsRamp, showsGlyphs, showsSprite⟩
  have run : drawOnPools spritePools pools f ⟨width, height, order⟩ threading =
      (Drawing.inTurn pools (Stroke.drawings
        (cardStrokes { ramp, glyphs, sprite } ⟨width, height, order⟩) threading)
          blank).toExcept := by
    simp only [drawOnPools, made, madeRamp, madeGlyphs, madeSprite]
    rfl
  rw [Stroke.inTurn_drawings (cardStrokes_fit shown order) threads pools geometry] at run
  exact ⟨_, run, Framebuffer.shows_mapPixels geometry fun x y d hx hy =>
    paintAll_cardStrokes shown order size.rows d hx hy⟩

/-- Pictures of one size that show the same are alike, in whatever orders their rows lie. -/
theorem alike_of_shows {order order' : RowOrder} {card card' : Framebuffer f}
    {shown : Nat → Nat → Color f} (h : card.Shows ⟨width, height, order⟩ shown)
    (h' : card'.Shows ⟨width, height, order'⟩ shown) : card.Alike card' := by
  obtain ⟨columns, rows⟩ := h.size
  obtain ⟨columns', rows'⟩ := h'.size
  refine .of_inside (columns.trans columns'.symm) (rows.trans rows'.symm) ?_
  intro x y hx hy
  rw [columns] at hx
  rw [rows] at hy
  rw [h.pixels x y hx hy, h'.pixels x y hx hy]

/-- All there is to know of the cards of a size. -/
structure Determined (f : PixelFormat) (width height : UInt32) : Prop where
  /-- A card is drawn for every order of rows and every setting with threads, on whatever pools.
  Each pixel has its shade, and all of them show the same picture. -/
  cards : ∃ picture : Picture, ∀ (order : RowOrder) (threading : Threading),
    threading.threads ≠ some 0 → ∃ card : Framebuffer f,
      draw f ⟨width, height, order⟩ threading = .ok card ∧
      (∀ spritePools pools,
        drawOnPools spritePools pools f ⟨width, height, order⟩ threading = .ok card) ∧
      card.Shows ⟨width, height, order⟩ (shade f width.toNat height.toNat) ∧
      card.picture = picture
  /-- The bands part the pixels by their rows. -/
  bands : ∀ i < bandCount, ∀ x < width.toNat, ∀ y < height.toNat,
    (band width height i).Contains x y ↔ i = bandOfRow height.toNat y
  /-- A coverage is a byte, and it does not fall from left to right. -/
  coverage : ∀ x < width.toNat,
    (Sheet.coverage width.toNat x).toNat = coverageAt width.toNat x ∧
      ∀ x' ≤ x, coverageAt width.toNat x' ≤ coverageAt width.toNat x

/-- A card of any size that it can have is drawn, and shows what its format and its size say. -/
theorem card_determined (f : PixelFormat) (width height : UInt32) (size : Drawable width height) :
    Determined f width height where
  cards := by
    -- Any one of the cards has the picture that all of them show.
    have manned : (default : Threading).threads ≠ some 0 := by decide
    obtain ⟨first, -, showsFirst⟩ := drawOnPools_shows default default f .topDown size manned
    refine ⟨first.picture, ?_⟩
    intro order threading threads
    obtain ⟨card, drawn, shows⟩ := drawOnPools_shows default default f order size threads
    have rowByRow : draw f ⟨width, height, order⟩ threading = .ok card :=
      (draw_eq_onPools default default f _ threading).trans drawn
    refine ⟨card, rowByRow, ?_, shows, (alike_of_shows shows showsFirst).picture⟩
    intro spritePools pools
    rw [← draw_eq_onPools, rowByRow]
  bands := fun i hi x hx y hy => contains_band size.rows hi hx hy
  coverage := by
    intro x hx
    have byte := coverageAt_le hx
    refine ⟨?_, fun x' h => coverageAt_mono h⟩
    rw [coverage_eq, UInt8.toNat_ofNat', Nat.mod_eq_of_lt (by omega)]

/-- Three columns, and one row more than there are bands. -/
theorem card_determined_remainder : Determined .rgb565 3 12 :=
  card_determined .rgb565 3 12 ⟨by decide, by decide, by decide⟩

end TestCard

end Raster
