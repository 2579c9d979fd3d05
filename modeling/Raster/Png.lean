import Raster.Picture
/-!
# PNG files

The bytes of a PNG file that shows a picture: eight bits for each of red, green, blue
and alpha, no filters, and the rows stored as they are in blocks of at most 65535 bytes.
Every chunk is followed by its CRC, and the data by its Adler sum.
-/

namespace Raster.Png

abbrev Bytes := Array UInt8

/-- Four bytes, the highest first. -/
def bigEndian (n : UInt32) : Bytes :=
  #[(n >>> 24).toUInt8, (n >>> 16).toUInt8, (n >>> 8).toUInt8, n.toUInt8]

/-- Two bytes, the lowest first. -/
def littleEndian (n : UInt16) : Bytes := #[n.toUInt8, (n >>> 8).toUInt8]

/-! ### Check sums -/

/-- Divide the remainder by one bit more. -/
def crcShift (c : UInt32) : UInt32 := if c &&& 1 = 1 then c >>> 1 ^^^ 0xedb88320 else c >>> 1

/-- Divide the remainder by one byte more. -/
def crcByte (c : UInt32) (b : UInt8) : UInt32 :=
  (List.range 8).foldl (fun c _ => crcShift c) (c ^^^ b.toUInt32)

def crc (bytes : Bytes) : UInt32 := ~~~bytes.foldl crcByte 0xffffffff

/-- The Adler sum of some bytes: their sum, and the sum of all sums on the way. -/
def adler (bytes : Bytes) : UInt32 :=
  let (low, high) := bytes.foldl (fun (low, high) (b : UInt8) =>
    let low := (low + b.toUInt32) % 65521
    (low, (high + low) % 65521)) ((1 : UInt32), (0 : UInt32))
  high <<< 16 ||| low

/-! ### The file -/

/-- A chunk: its length, its name, its data, its CRC. -/
def chunk (name : String) (data : Bytes) : Bytes :=
  let named : Bytes := name.toUTF8.data ++ data
  bigEndian (UInt32.ofNat data.size) ++ named ++ bigEndian (crc named)

/-- The most bytes in a stored block. -/
def blockSize : Nat := 65535

/-- Bytes stored as they are, in blocks of which the last is marked. -/
def stored (bytes : Bytes) : Bytes :=
  let count := max 1 ((bytes.size + blockSize - 1) / blockSize)
  (List.range count).foldl (fun out i =>
    let block := bytes.extract (i * blockSize) ((i + 1) * blockSize)
    let size := UInt16.ofNat block.size
    out.push (if i + 1 = count then 1 else 0) ++ littleEndian size ++ littleEndian (~~~size)
      ++ block) #[]

/-- The rows of a picture, each after the number of its filter. -/
def rows (p : Picture) : Bytes :=
  (List.range p.height.toNat).foldl (fun out y =>
    (p.pixels.extract (y * p.width.toNat) ((y + 1) * p.width.toNat)).foldl
      (fun out c => out.push c.red |>.push c.green |>.push c.blue |>.push c.alpha)
      (out.push 0)) #[]

def encode (p : Picture) : Bytes :=
  let signature : Bytes := #[0x89, 0x50, 0x4e, 0x47, 0x0d, 0x0a, 0x1a, 0x0a]
  let header := bigEndian p.width ++ bigEndian p.height ++ #[8, 6, 0, 0, 0]
  let data := rows p
  signature ++ chunk "IHDR" header
    ++ chunk "IDAT" (#[0x78, 0x01] ++ stored data ++ bigEndian (adler data))
    ++ chunk "IEND" #[]

end Raster.Png
