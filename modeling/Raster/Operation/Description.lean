import Raster.Description
import Raster.Operation.Basic
/-!
# Descriptions of operations

An operation is described by how it is built up: how a pixel is written (directly, by
blending with what is there, or on a condition), at which granularity, and by which
function. `Operation.strategy` is that part, and `Operation.description` adds the two
formats.
-/

namespace Raster

/-- The parts of a color, by the name of its representation. -/
def Color.description {f : PixelFormat} : Color f → Description
  | .gray y => .tuple "Luminosity8" [.nat y.toNat]
  | .rgb565 p => .tuple "Rgb565Color" [.nat p.toNat]
  | .bgra b g r a =>
      .closed "Bgra8" [("b", .nat b.toNat), ("g", .nat g.toNat), ("r", .nat r.toNat),
        ("a", .nat a.toNat)]

/-- The name of a function lifted to whole colors. -/
def Granularity.description (unit : Granularity) (function : Description) : Description :=
  let name := match unit with
    | .word => "PerInteger"
    | .channel => "PerChannel"
  .closed name [("op", function)]

/-- The name of a bitwise combination. -/
def BitwiseOp.description : BitwiseOp → Description
  | .or => .word "BitOr"
  | .and => .word "BitAnd"
  | .orNot => .word "BitNotOr"

namespace Operation

variable {f s : PixelFormat}

/-- A write that ignores the destination. -/
def directly (function : Description) : Description := .closed "DirectWrite" [("op", function)]

/-- A write that reads the destination first. -/
def blending (function : Description) : Description := .closed "BlendWrite" [("op", function)]

/-- How a pixel is written, and by which function. -/
def strategy : Operation f s → Description
  | .copy => directly (.word "Identity")
  | .invert unit => directly (unit.description (.word "BitNot"))
  | .bitwise unit op => blending (unit.description op.description)
  | .blend weight =>
      blending (Granularity.channel.description
        (.closed "AlphaBlend" [("alpha", .nat weight.toNat)]))
  | .ink color => blending (.closed "ColoredAlpha" [("color", color.description)])
  | .gradient low high =>
      directly (.closed "OpaqueAlpha" [("a", low.description), ("b", high.description)])
  | .glyph background text =>
      directly (.closed "OpaqueText" [("background", background.description),
        ("text", text.description), ("source", .quoted s.name)])
  | .keyed key =>
      .closed "ConditionalWrite" [("check", .closed "ColorKey" [("key", key.description)])]
  | .keyedInvert key => .closed "TransparentInvertWrite" [("key", key.description)]

/-- The operation with the formats it works on. -/
def description (op : Operation f s) : Description :=
  .closed "PixelOps" [("format", .quoted f.name), ("source", .quoted s.name),
    ("write", op.strategy)]

end Operation

end Raster
