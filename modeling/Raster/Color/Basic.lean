import Raster.Fault
import Raster.PixelFormat
/-!
# Colors and their bytes

`Color f` is the value of one pixel of format `f`. It is a family over the format, so a
function of two colors says in its type whether they belong to the same format, and
splitting on a color splits on its format.

The bytes of a color are what lies in memory, in increasing address order. `bytes` and
`ofBytes?` are inverse to each other: reading looks at exactly as many bytes as the
format has and ignores what follows (`ofBytes?_bytes_append`), and every sequence of
that many bytes is some color (`bytes_of_ofBytes?`).
-/

namespace Raster

/-- The value of one pixel. -/
inductive Color : PixelFormat → Type
  /-- A luminosity, or a coverage: 0 is none and 255 is full. -/
  | gray (luminosity : UInt8) : Color .gray8
  /-- Red in bits 11 to 15, green in bits 5 to 10, blue in bits 0 to 4. -/
  | rgb565 (packed : UInt16) : Color .rgb565
  /-- Four samples, in the order in which they lie in memory. -/
  | bgra (blue green red alpha : UInt8) : Color .bgra8888
  deriving DecidableEq

namespace Color

variable {f : PixelFormat}

/-- The color whose bytes are all zero. -/
def zero : (f : PixelFormat) → Color f
  | .gray8 => .gray 0
  | .rgb565 => .rgb565 0
  | .bgra8888 => .bgra 0 0 0 0

instance : Inhabited (Color f) := ⟨zero f⟩

/-- Luminosity and coverage are the only number in a `gray8` color. -/
def luminosity : Color .gray8 → UInt8
  | .gray y => y

/-- No light, no coverage. -/
def black : Color .gray8 := .gray 0

/-- Full light, full coverage. -/
def white : Color .gray8 := .gray 0xff

/-- The bytes of a pixel in increasing address order. -/
def bytes : Color f → List UInt8
  | .gray y => [y]
  | .rgb565 p => [p.toUInt8, (p >>> 8).toUInt8]
  | .bgra b g r a => [b, g, r, a]

@[simp] theorem length_bytes (c : Color f) : c.bytes.length = f.bytesPerPixel := by
  cases c <;> rfl

/-- The color whose bytes a sequence starts with; `none` if it is too short. -/
def ofBytes? : (f : PixelFormat) → List UInt8 → Option (Color f)
  | .gray8, y :: _ => some (.gray y)
  | .rgb565, low :: high :: _ => some (.rgb565 (low.toUInt16 ||| high.toUInt16 <<< 8))
  | .bgra8888, b :: g :: r :: a :: _ => some (.bgra b g r a)
  | _, _ => none

/-- Two bytes put together, the low one first. -/
theorem toNat_joinBytes (low high : UInt8) :
    (low.toUInt16 ||| high.toUInt16 <<< 8).toNat = low.toNat + high.toNat * 256 := by
  have hl := low.toNat_lt
  have hh := high.toNat_lt
  have join := Nat.shiftLeft_add_eq_or_of_lt (b := low.toNat) (i := 8) (by omega) high.toNat
  have fits : high.toNat * 256 % 65536 = high.toNat * 256 := by omega
  simp only [Nat.shiftLeft_eq, Nat.reducePow] at join
  simp only [UInt16.toNat_or, UInt8.toNat_toUInt16, UInt16.toNat_shiftLeft, UInt16.reduceToNat,
    Nat.shiftLeft_eq, Nat.reduceMod, Nat.reducePow, fits]
  rw [Nat.or_comm, ← join, Nat.add_comm]

/-- Joining the two bytes of a word gives the word. -/
theorem joinBytes_split (p : UInt16) :
    p.toUInt8.toUInt16 ||| (p >>> 8).toUInt8.toUInt16 <<< 8 = p := by
  apply UInt16.toNat_inj.mp
  rw [toNat_joinBytes]
  have := p.toNat_lt
  simp [Nat.shiftRight_eq_div_pow]
  omega

theorem toUInt8_joinBytes (low high : UInt8) :
    (low.toUInt16 ||| high.toUInt16 <<< 8).toUInt8 = low := by
  apply UInt8.toNat_inj.mp
  rw [UInt16.toNat_toUInt8, toNat_joinBytes]
  have := low.toNat_lt
  omega

theorem toUInt8_joinBytes_shift (low high : UInt8) :
    ((low.toUInt16 ||| high.toUInt16 <<< 8) >>> 8).toUInt8 = high := by
  apply UInt8.toNat_inj.mp
  rw [UInt16.toNat_toUInt8, UInt16.toNat_shiftRight, toNat_joinBytes]
  have := low.toNat_lt
  have := high.toNat_lt
  simp [Nat.shiftRight_eq_div_pow]
  omega

/-- Reading back the bytes of a color gives the color, whatever follows them. -/
@[simp] theorem ofBytes?_bytes_append (c : Color f) (rest : List UInt8) :
    ofBytes? f (c.bytes ++ rest) = some c := by
  cases c with
  | gray y => rfl
  | rgb565 p => simp only [bytes, ofBytes?, List.cons_append, joinBytes_split]
  | bgra b g r a => rfl

@[simp] theorem ofBytes?_bytes (c : Color f) : ofBytes? f c.bytes = some c := by
  simpa using ofBytes?_bytes_append c []

/-- The color read from a sequence has the bytes that the sequence starts with. -/
theorem bytes_of_ofBytes? {ys : List UInt8} {c : Color f} (h : ofBytes? f ys = some c) :
    c.bytes = ys.take f.bytesPerPixel := by
  cases f with
  | gray8 =>
      match ys, h with
      | y :: _, h => cases h; simp [bytes]
  | rgb565 =>
      match ys, h with
      | low :: high :: _, h =>
          cases h
          simp only [bytes, toUInt8_joinBytes, toUInt8_joinBytes_shift]
          rfl
  | bgra8888 =>
      match ys, h with
      | b :: g :: r :: a :: _, h => cases h; simp [bytes]

/-- A sequence holds a color exactly when it is long enough. -/
theorem isSome_ofBytes? (ys : List UInt8) :
    (ofBytes? f ys).isSome ↔ f.bytesPerPixel ≤ ys.length := by
  cases f with
  | gray8 =>
      match ys with
      | [] => simp [ofBytes?]
      | _ :: _ => simp [ofBytes?]
  | rgb565 =>
      match ys with
      | [] | [_] => simp [ofBytes?]
      | _ :: _ :: _ => simp [ofBytes?]
  | bgra8888 =>
      match ys with
      | [] | [_] | [_, _] | [_, _, _] => simp [ofBytes?]
      | _ :: _ :: _ :: _ :: _ => simp [ofBytes?]

/-- Put a color into a stretch of bytes. One byte of luminosity goes to the front of any
stretch that has a front; the wider formats ask for a stretch of exactly their size. -/
def encodeInto : Color f → List UInt8 → Except Fault (List UInt8)
  | .gray y, _ :: rest => .ok (y :: rest)
  | .gray _, [] => .error .wrongByteCount
  | .rgb565 p, ys => if ys.length = 2 then .ok (bytes (.rgb565 p)) else .error .wrongByteCount
  | .bgra b g r a, ys => if ys.length = 4 then .ok [b, g, r, a] else .error .wrongByteCount

/-- A stretch of exactly one pixel takes on the bytes of the color. -/
theorem encodeInto_of_length (c : Color f) {ys : List UInt8}
    (h : ys.length = f.bytesPerPixel) : c.encodeInto ys = .ok c.bytes := by
  cases c with
  | gray y =>
      match ys, h with
      | [_], _ => rfl
  | rgb565 p => simp_all [encodeInto]
  | bgra b g r a => simp_all [encodeInto, bytes]

end Color

end Raster
