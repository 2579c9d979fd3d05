import Raster.Bitwise
import Raster.Sample
/-!
# Drawing operations

An operation says what becomes of a destination pixel when a source pixel is drawn onto
it. `Operation f s` draws sources of format `s` onto destinations of format `f`; most
operations work within one format, the coverage operations take their source from
`gray8`, and glyphs may come in any format.

The whole meaning is in two functions:

* `skips` — a keyed operation leaves the destination alone when the source has the key
  color. A skipped pixel is not looked at at all, so it does not even matter whether it
  exists;
* `combine` — the new destination otherwise, from the old destination and the source.

`commit` joins the two into the new color, if there is one. What runs is `combine?`, in
which the blends check the numbers they go through; `combine?_eq_ok` says that no check
ever fails.
-/

namespace Raster

/-- What to do with a destination pixel of format `f` and a source pixel of format `s`. -/
inductive Operation : PixelFormat → PixelFormat → Type
  /-- The source as it is. -/
  | copy {f : PixelFormat} : Operation f f
  /-- The source with every bit inverted. -/
  | invert {f : PixelFormat} (unit : Granularity) : Operation f f
  /-- Destination and source combined bit by bit. -/
  | bitwise {f : PixelFormat} (unit : Granularity) (op : BitwiseOp) : Operation f f
  /-- Each channel of the destination moved toward the source by a fixed weight. -/
  | blend {f : PixelFormat} (weight : UInt8) : Operation f f
  /-- Each channel of the destination moved toward the ink by the coverage. -/
  | ink {f : PixelFormat} (color : Color f) : Operation f .gray8
  /-- The coverage as a point on the way from `low` to `high`. -/
  | gradient {f : PixelFormat} (low high : Color f) : Operation f .gray8
  /-- A glyph bitmap recolored: `background` where it is black and `text` elsewhere. -/
  | glyph {f s : PixelFormat} (background text : Color f) : Operation f s
  /-- The source as it is, except where it has the key color. -/
  | keyed {f : PixelFormat} (key : Color f) : Operation f f
  /-- The source inverted, except where it has the key color. -/
  | keyedInvert {f : PixelFormat} (key : Color f) : Operation f f

namespace Operation

variable {f s : PixelFormat}

/-- The weight of a blend that nobody chose keeps the destination. -/
def defaultWeight : UInt8 := 0

/-- Source pixels of this color leave the destination alone. -/
def skips : Operation f s → Color s → Bool
  | .keyed key, c => c == key
  | .keyedInvert key, c => c == key
  | _, _ => false

/-- The color drawn onto a destination of color `d` for a source of color `c`. -/
def combine : Operation f s → (d : Color f) → (c : Color s) → Color f
  | .copy, _, c => c
  | .invert unit, _, c => c.complement unit
  | .bitwise unit op, d, c => Color.bitwise unit op d c
  | .blend weight, d, c => Color.zipChannels (Sample.lerp · · weight) d c
  | .ink color, d, c => Color.zipChannels (Sample.lerp · · c.luminosity) d color
  | .gradient low high, _, c => Color.zipChannels (Sample.lerp · · c.luminosity) low high
  | .glyph background text, _, c => if c.isBlack then background else text
  | .keyed _, _, c => c
  | .keyedInvert _, _, c => c.complement .word

/-- The color drawn, where a blend faults on a number that does not fit. -/
def combine? : Operation f s → (d : Color f) → (c : Color s) → Except Fault (Color f)
  | .blend weight, d, c => Color.zipChannels? (Sample.lerp? · · weight) d c
  | .ink color, d, c => Color.zipChannels? (Sample.lerp? · · c.luminosity) d color
  | .gradient low high, _, c => Color.zipChannels? (Sample.lerp? · · c.luminosity) low high
  | op, d, c => .ok (op.combine d c)

/-- Drawing one color onto another meets no fault. -/
theorem combine?_eq_ok (op : Operation f s) (d : Color f) (c : Color s) :
    op.combine? d c = .ok (op.combine d c) := by
  cases op with
  | blend weight =>
      exact Color.zipChannels?_eq_ok (fun x y => Sample.lerp?_eq_ok x y weight) d c
  | ink color =>
      exact Color.zipChannels?_eq_ok (fun x y => Sample.lerp?_eq_ok x y c.luminosity) d color
  | gradient low high =>
      exact Color.zipChannels?_eq_ok (fun x y => Sample.lerp?_eq_ok x y c.luminosity) low high
  | _ => rfl

/-- The new color of the destination, or `none` if it is left alone. -/
def commit (op : Operation f s) (d : Color f) (c : Color s) : Option (Color f) :=
  if op.skips c then none else some (op.combine d c)

/-- The color of the destination afterwards: the new one, or the old one if it is left alone. -/
def result (op : Operation f s) (d : Color f) (c : Color s) : Color f := (op.commit d c).getD d

theorem result_of_skips {op : Operation f s} {c : Color s} (h : op.skips c = true)
    (d : Color f) : op.result d c = d := by
  simp [result, commit, h]

theorem result_of_not_skips {op : Operation f s} {c : Color s} (h : op.skips c = false)
    (d : Color f) : op.result d c = op.combine d c := by
  simp [result, commit, h]

/-- Whether the old destination has a part in the new one. -/
def readsDestination : Operation f s → Bool
  | .bitwise _ _ | .blend _ | .ink _ => true
  | _ => false

/-- An operation that does not read the destination gives the same on every one. -/
theorem combine_eq_of_not_reads (op : Operation f s) (h : op.readsDestination = false)
    (d d' : Color f) (c : Color s) : op.combine d c = op.combine d' c := by
  cases op <;> simp_all [readsDestination, combine]

end Operation

end Raster
