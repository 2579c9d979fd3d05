import Raster.Picture
import Raster.Sheet
/-!
# The test card

A picture of eleven bands of equal height, one for every way of drawing; the rows that
are left over belong to the last band. It is drawn onto a ground of one color, band by
band, with the three sheets as sources.
-/

namespace Raster.TestCard

def bandCount : Nat := 11

/-- The `i`-th band. The last one goes on to the bottom. -/
def band (width height : UInt32) (i : Nat) : Band :=
  let rows := height.toNat / bandCount
  let count := if i + 1 = bandCount then height.toNat - i * rows else rows
  ⟨0, .ofNat (i * rows), width, .ofNat count⟩

def bands (width height : UInt32) : List Band := (List.range bandCount).map (band width height)

/-- The color of the ground. -/
def ground (f : PixelFormat) : Color f := .ofRgb f 40 44 56

/-- The sources of the bands that are copied. -/
structure Sheets (f : PixelFormat) where
  /-- Coverage from left to right. -/
  ramp : Framebuffer .gray8
  /-- Glyphs. -/
  glyphs : Framebuffer .gray8
  /-- A block on the key color. -/
  sprite : Framebuffer f

/-- What is drawn onto the bands, from the top down. -/
def strokes {f : PixelFormat} (sheets : Sheets f) : List (Stroke f) :=
  [.fill .copy (.ofRgb f 230 230 230),
   .copy (.invert .word) sheets.sprite,
   .fill (.bitwise .word .or) (.ofRgb f 0 0 160),
   .fill (.bitwise .word .and) (.ofRgb f 255 96 0),
   .fill (.bitwise .word .orNot) (.ofRgb f 0 255 255),
   .fill (.blend 128) (.ofRgb f 220 40 40),
   .copy (.ink (.ofRgb f 250 210 60)) sheets.ramp,
   .copy (.gradient (.ofRgb f 0 40 120) (.ofRgb f 255 255 255)) sheets.ramp,
   .copy (.glyph (.ofRgb f 250 250 240) (.ofRgb f 20 20 20)) sheets.glyphs,
   .copy (.keyed (Sheet.keyColor f)) sheets.sprite,
   .copy (.keyedInvert (Sheet.keyColor f)) sheets.sprite]

/-- There is a stroke for every band. -/
theorem length_strokes {f : PixelFormat} (sheets : Sheets f) :
    (strokes sheets).length = bandCount := rfl

/-- Draw the ground, and onto it each stroke in its band. -/
def drawOn {f : PixelFormat} (sheets : Sheets f) (threading : Threading) (fb : Framebuffer f) :
    Except Failure (Framebuffer f) := do
  let card ← ((Stroke.fill .copy (ground f)).drawAll threading fb).toExcept
  ((bands fb.width fb.height).zip (strokes sheets)).foldlM
    (fun card (band, stroke) => (stroke.draw band threading card).toExcept) card

def draw (f : PixelFormat) (g : Geometry) (threading : Threading) :
    Except Failure (Framebuffer f) := do
  let card ← Framebuffer.blank f g
  let ramp ← Sheet.ramp g.width g.height
  let glyphs ← Sheet.checker g.width g.height
  let sprite ← Sheet.sprite f g.width g.height threading
  drawOn { ramp, glyphs, sprite } threading card

end Raster.TestCard
