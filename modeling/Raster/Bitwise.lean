import Raster.Color.Channels
import Raster.Color.Word
/-!
# Bitwise operations on colors

Three ways to combine a destination with a source bit by bit, and the complement. Each
can be carried out at two granularities: on the whole pixel as one word, or on each
channel as an 8-bit sample, after which the color is put together again.

`BitwiseOp.eval` is written once for every type that has the bit operations, so that the
same formula serves samples, 16-bit and 32-bit words.
-/

namespace Raster

/-- A bitwise combination of a destination with a source. -/
inductive BitwiseOp
  | or
  | and
  /-- Bits set in the destination or clear in the source. -/
  | orNot
  deriving DecidableEq

@[inline] def BitwiseOp.eval {α : Type} [OrOp α] [AndOp α] [Complement α] (op : BitwiseOp)
    (d s : α) : α :=
  match op with
  | .or => d ||| s
  | .and => d &&& s
  | .orNot => d ||| ~~~s

/-- What a bitwise operation takes as its unit. -/
inductive Granularity
  /-- The whole pixel as one unsigned word. -/
  | word
  /-- Each channel as an 8-bit sample. -/
  | channel
  deriving DecidableEq

namespace Color

variable {f : PixelFormat}

/-- Every bit inverted. -/
def complement : Granularity → Color f → Color f
  | .word, c => c.mapWord (~~~ ·)
  | .channel, c => c.mapChannels (~~~ ·)

def bitwise : Granularity → BitwiseOp → Color f → Color f → Color f
  | .word, op, d, s => zipWords op.eval d s
  | .channel, op, d, s => zipChannels op.eval d s

end Color

end Raster
