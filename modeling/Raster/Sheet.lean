import Raster.Color.Rgb
import Raster.Stroke
/-!
# Sheets

Three pictures that others are drawn from:

* `Sheet.ramp` — coverage that grows from left to right, from 0 to 255;
* `Sheet.checker` — white and black cells of 4 by 4 pixels, in place of a glyph bitmap;
* `Sheet.sprite` — a block of plain color, half as wide as the sheet, on the key color.

All of them lie from the top down.
-/

namespace Raster.Sheet

/-- The color that keyed operations leave out. -/
def keyColor (f : PixelFormat) : Color f := .ofRgb f 255 0 255

def blockColor (f : PixelFormat) : Color f := .ofRgb f 60 180 90

/-! ### The ramp -/

/-- The coverage in column `x` of a ramp. A ramp of one column has coverage 0 there. -/
def coverage (width x : Nat) : UInt8 := UInt8.ofNat (x * 255 / max (width - 1) 1)

def rampRow (width : Nat) : Buffer := Array.ofFn fun x : Fin width => coverage width x

/-- The same row as many times as there are rows. -/
def ramp (width height : UInt32) : Except Failure (Framebuffer .gray8) :=
  let n := width.toNat * height.toNat
  if n ≤ maxAllocation then
    let bytes := (Array.replicate height.toNat (rampRow width.toNat)).flatten
    (Framebuffer.ofBytes .gray8 ⟨width, height, .topDown⟩ bytes).mapError .error
  else .error (.fault (.allocationTooLarge n))

/-! ### The checker board -/

def cellSize : Nat := 4

/-- The color of the cell in column `i` of row `j` of the board. -/
def cellColor (i j : Nat) : Color .gray8 := if (i + j) % 2 = 1 then .white else .black

/-- Draw the `i`-th cell's pixels in row `y`. The last cell may be cut off. -/
def drawCell (y i : Nat) (board : Framebuffer .gray8) : Outcome Failure (Framebuffer .gray8) :=
  let x := i * cellSize
  board.fillSpan .copy (.ofNat x) (.ofNat y) (.ofNat (min cellSize (board.width.toNat - x)))
    (cellColor i (y / cellSize))

/-- A board that is drawn row by row and cell by cell. -/
def checker (width height : UInt32) : Except Failure (Framebuffer .gray8) := do
  let board ← Framebuffer.blank .gray8 ⟨width, height, .topDown⟩
  let cells := (width.toNat + cellSize - 1) / cellSize
  (Outcome.sweep (fun y board => Outcome.sweep (drawCell y) 0 cells board) 0 height.toNat
    board).toExcept

/-! ### The sprite -/

/-- Where the sprite's block is: from a quarter of the width on, half as wide. -/
def blockBand (width height : UInt32) : Band := ⟨width / 4, 0, width / 2, height⟩

/-- The key color everywhere, and then the block. -/
def sprite (f : PixelFormat) (width height : UInt32) (threading : Threading) :
    Except Failure (Framebuffer f) := do
  let sheet ← Framebuffer.blank f ⟨width, height, .topDown⟩
  let sheet ← ((Stroke.fill .copy (keyColor f)).drawAll threading sheet).toExcept
  ((Stroke.fill .copy (blockColor f)).draw (blockBand width height) threading sheet).toExcept

end Raster.Sheet
