import Raster.History
import Raster.TestCard
/-!
# Test cards on pools

A test card comes with a setting, which may ask for the rows of its bands to be shared out among
threads. `TestCard.draw` draws row after row, whatever the setting. `TestCard.drawOnPools` is the
same card with a pool for each of the bands that are drawn, those of the sprite and those of the
card, and each band a request of its own.
-/

namespace Raster

/-- The request to draw a stroke onto a band. -/
def Stroke.drawing {f : PixelFormat} (stroke : Stroke f) (band : Band) (threading : Threading) :
    Drawing f :=
  match stroke with
  | .fill op c => .fillRows op band c threading
  | .copy op sheet => .copyRows op band sheet band.x band.y threading

/-- Strokes with the bands that they go to. -/
def Stroke.drawings {f : PixelFormat} (strokes : List (Band × Stroke f)) (threading : Threading) :
    List (Drawing f) :=
  strokes.map fun (band, stroke) => stroke.drawing band threading

namespace Sheet

/-- The strokes of a sprite: the key color everywhere, and then the block. -/
def spriteStrokes (f : PixelFormat) (width height : UInt32) : List (Band × Stroke f) :=
  [(⟨0, 0, width, height⟩, .fill .copy (keyColor f)),
   (blockBand width height, .fill .copy (blockColor f))]

/-- The sprite, drawn on pools. -/
def spriteOnPools (pools : Nat → Pool) (f : PixelFormat) (width height : UInt32)
    (threading : Threading) : Except Failure (Framebuffer f) := do
  let sheet ← Framebuffer.blank f ⟨width, height, .topDown⟩
  (Drawing.inTurn pools (Stroke.drawings (spriteStrokes f width height) threading)
    sheet).toExcept

end Sheet

namespace TestCard

/-- The strokes of a card: the ground, and one for each band. -/
def cardStrokes {f : PixelFormat} (sheets : Sheets f) (g : Geometry) : List (Band × Stroke f) :=
  (g.fullBand, .fill .copy (ground f)) :: (bands g.width g.height).zip (strokes sheets)

/-- The card, drawn on pools. -/
def drawOnPools (spritePools pools : Nat → Pool) (f : PixelFormat) (g : Geometry)
    (threading : Threading) : Except Failure (Framebuffer f) := do
  let card ← Framebuffer.blank f g
  let ramp ← Sheet.ramp g.width g.height
  let glyphs ← Sheet.checker g.width g.height
  let sprite ← Sheet.spriteOnPools spritePools f g.width g.height threading
  (Drawing.inTurn pools (Stroke.drawings (cardStrokes { ramp, glyphs, sprite } g) threading)
    card).toExcept

end TestCard

end Raster
