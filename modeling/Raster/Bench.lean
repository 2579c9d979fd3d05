import Raster.Sheet
/-!
# The bench

A run of thirteen passes over one framebuffer, each of them one stroke onto all of it,
repeated as often as asked for. A pass is named by its operation and by whether it fills
or copies; how long it takes is for whoever runs it to say.
-/

namespace Raster.Bench

/-- A stroke to be repeated. -/
structure Pass (f : PixelFormat) where
  name : String
  stroke : Stroke f

variable {f : PixelFormat}

def Pass.mode (pass : Pass f) : String :=
  match pass.stroke with
  | .fill .. => "fill"
  | .copy .. => "copy"

def fillColor (f : PixelFormat) : Color f := .ofRgb f 220 40 40

def passes (ramp : Framebuffer .gray8) (sprite : Framebuffer f) : List (Pass f) :=
  let color := fillColor f
  let key := Sheet.keyColor f
  [⟨"copy", .fill .copy color⟩,
   ⟨"copy", .copy .copy sprite⟩,
   ⟨"bit_not", .copy (.invert .word) sprite⟩,
   ⟨"bit_or", .fill (.bitwise .word .or) color⟩,
   ⟨"bit_and", .fill (.bitwise .word .and) color⟩,
   ⟨"bit_not_or", .fill (.bitwise .word .orNot) color⟩,
   ⟨"alpha", .fill (.blend 128) color⟩,
   ⟨"alpha", .copy (.blend 128) sprite⟩,
   ⟨"colored_alpha", .copy (.ink color) ramp⟩,
   ⟨"opaque_alpha", .copy (.gradient color key) ramp⟩,
   ⟨"opaque_text", .copy (.glyph key color) ramp⟩,
   ⟨"transparent", .copy (.keyed key) sprite⟩,
   ⟨"transparent_invert", .copy (.keyedInvert key) sprite⟩]

/-- A framebuffer, and the passes to be run on it. -/
structure Setup (f : PixelFormat) where
  target : Framebuffer f
  passes : List (Pass f)

/-- The bench for pictures of this size. -/
def setup (f : PixelFormat) (width height : UInt32) (threading : Threading) :
    Except Failure (Setup f) := do
  let ramp ← Sheet.ramp width height
  let sprite ← Sheet.sprite f width height threading
  let target ← Framebuffer.blank f ⟨width, height, .topDown⟩
  return { target, passes := passes ramp sprite }

def Pass.run (pass : Pass f) (iterations : Nat) (threading : Threading) (fb : Framebuffer f) :
    Except Failure (Framebuffer f) :=
  (Outcome.sweep (fun _ fb => pass.stroke.drawAll threading fb) 0 iterations fb).toExcept

/-- Do all passes, and leave the framebuffer after the last. -/
def Setup.run (s : Setup f) (iterations : Nat) (threading : Threading) :
    Except Failure (Framebuffer f) :=
  s.passes.foldlM (fun fb pass => pass.run iterations threading fb) s.target

end Raster.Bench
