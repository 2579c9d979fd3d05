import Raster.Framebuffer.Draw
/-!
# Strokes

A stroke is what is drawn onto a band, said once and for any band: an operation with a
color for every pixel, or with a sheet of which each pixel is drawn onto the pixel at
its own place. Pictures that are put together from many bands, and runs that repeat the
same drawing, are lists of strokes.
-/

namespace Raster

/-- What is drawn onto a band. -/
inductive Stroke (f : PixelFormat)
  /-- The same color onto every pixel. -/
  | fill {s : PixelFormat} (op : Operation f s) (c : Color s)
  /-- The pixels of a sheet, each onto its own place. -/
  | copy {s : PixelFormat} (op : Operation f s) (sheet : Framebuffer s)

namespace Stroke

variable {f : PixelFormat}

/-- Draw onto a band. -/
def draw (stroke : Stroke f) (band : Band) (threading : Threading) (fb : Framebuffer f) :
    Outcome Failure (Framebuffer f) :=
  match stroke with
  | .fill op c => fb.fillRows op band c threading
  | .copy op sheet => fb.copyRows op band sheet band.x band.y threading

/-- Draw onto all of a picture. -/
def drawAll (stroke : Stroke f) (threading : Threading) (fb : Framebuffer f) :
    Outcome Failure (Framebuffer f) :=
  stroke.draw fb.fullBand threading fb

end Stroke

end Raster
