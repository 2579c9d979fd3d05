/-!
# Faults

Some requests have no answer: reading a pixel outside its buffer, placing a pixel in a
row that does not exist, asking for more memory than an address can reach. These are
not reported as errors, because keeping clear of them is the caller's part; work stops
where the fault arises, and what was done before stays done (`Raster.Outcome`).

A fault names its cause. The four that come from a broken promise about a number also
have a text that says which number it was.
-/

namespace Raster

/-- Why work stopped on a broken precondition. -/
inductive Fault
  /-- The pixel to be read as a source lies outside its buffer. -/
  | sourceOutside
  /-- The pixel to be written lies outside its buffer. -/
  | destinationOutside
  /-- The bytes given for one pixel are too few, or not exactly as many as it takes. -/
  | wrongByteCount
  /-- A number that was to become an 8-bit sample is not in `0 … 255`. -/
  | sampleOutside (value : Int)
  /-- A number that was to be the weight of a blend is not in `0 … 255`. -/
  | weightOutside (weight : Int)
  /-- A sum, a difference or a product does not fit the machine number it is kept in. -/
  | overflow
  /-- A stretch of bytes was asked for that does not lie inside its buffer. -/
  | sliceOutside
  /-- Bytes were to be divided into pieces of no bytes. -/
  | emptyPieces
  /-- A row at or below the bottom edge was addressed. -/
  | rowOutside (row height : UInt32)
  /-- A column at or beyond the right edge was addressed. -/
  | columnOutside (column width : UInt32)
  /-- More bytes were asked for than the largest signed address. -/
  | allocationTooLarge (bytes : Nat)
  deriving DecidableEq

/-- What a fault says about itself, for those that say anything. -/
def Fault.message? : Fault → Option String
  | .sampleOutside value => some s!"u8 channel out of range: {value}"
  | .weightOutside weight => some s!"blend weight out of range: {weight}"
  | .rowOutside row height => some s!"row {row} outside {height} row framebuffer"
  | .columnOutside column width => some s!"column {column} outside {width} column framebuffer"
  | .sourceOutside | .destinationOutside | .wrongByteCount | .overflow | .sliceOutside
  | .emptyPieces | .allocationTooLarge _ => none

end Raster
