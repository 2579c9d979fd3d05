/-!
# Pixel formats

How one pixel lies in memory. There are three formats, and everything else in the
library is indexed by one of them:

* `gray8` — one byte of luminosity, also used for coverage masks and glyph bitmaps;
* `rgb565` — five bits of red, six of green and five of blue in one little-endian
  16-bit word, red in the high bits;
* `bgra8888` — four bytes, blue first and alpha last.

A whole pixel is also one unsigned machine word, `PixelFormat.Word`, which is what the
bitwise operations work on. The instances below let a bitwise formula be written once
for all formats.
-/

namespace Raster

/-- The layout of one pixel in memory. -/
inductive PixelFormat
  /-- One byte of luminosity. -/
  | gray8
  /-- Two bytes, 5 bits of red, 6 of green and 5 of blue. -/
  | rgb565
  /-- Four bytes, blue, green, red and alpha. -/
  | bgra8888
  deriving DecidableEq

namespace PixelFormat

def all : List PixelFormat := [.gray8, .rgb565, .bgra8888]

/-- The short stable name used in messages, reports and on the command line. -/
def name : PixelFormat → String
  | .gray8 => "gray8"
  | .rgb565 => "rgb565"
  | .bgra8888 => "bgra8888"

/-- The format of exactly this name. -/
def ofName? (s : String) : Option PixelFormat := all.find? (·.name == s)

@[simp] theorem ofName?_name (f : PixelFormat) : ofName? f.name = some f := by
  cases f <;> decide

/-- How many bytes one pixel takes in memory. -/
def bytesPerPixel : PixelFormat → Nat
  | .gray8 => 1
  | .rgb565 => 2
  | .bgra8888 => 4

@[simp] theorem bytesPerPixel_gray8 : gray8.bytesPerPixel = 1 := rfl

@[simp] theorem bytesPerPixel_rgb565 : rgb565.bytesPerPixel = 2 := rfl

@[simp] theorem bytesPerPixel_bgra8888 : bgra8888.bytesPerPixel = 4 := rfl

theorem bytesPerPixel_pos (f : PixelFormat) : 0 < f.bytesPerPixel := by
  cases f <;> decide

theorem bytesPerPixel_le (f : PixelFormat) : f.bytesPerPixel ≤ 4 := by
  cases f <;> decide

/-- The unsigned word that holds a whole pixel. -/
abbrev Word : PixelFormat → Type
  | .gray8 => UInt8
  | .rgb565 => UInt16
  | .bgra8888 => UInt32

/-! ### Bitwise operations on the words of every format -/

instance complementWord : (f : PixelFormat) → Complement f.Word
  | .gray8 => inferInstanceAs (Complement UInt8)
  | .rgb565 => inferInstanceAs (Complement UInt16)
  | .bgra8888 => inferInstanceAs (Complement UInt32)

instance orWord : (f : PixelFormat) → OrOp f.Word
  | .gray8 => inferInstanceAs (OrOp UInt8)
  | .rgb565 => inferInstanceAs (OrOp UInt16)
  | .bgra8888 => inferInstanceAs (OrOp UInt32)

instance andWord : (f : PixelFormat) → AndOp f.Word
  | .gray8 => inferInstanceAs (AndOp UInt8)
  | .rgb565 => inferInstanceAs (AndOp UInt16)
  | .bgra8888 => inferInstanceAs (AndOp UInt32)

end PixelFormat

end Raster
