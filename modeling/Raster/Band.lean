import Raster.Description
/-!
# Bands

A band is a rectangle of pixels given by its left edge, its top row, and its width and
height. Its edges are 32-bit numbers, but whether it lies inside a picture is a question
about sums, and sums are taken exactly: a band whose right or bottom edge does not fit
32 bits is outside every picture.

A band may be empty, because it has no columns or because it has no rows. It can lie in a
picture all the same, but there is nothing in it to draw, however many rows it is said to
have.
-/

namespace Raster

/-- A rectangle of pixels. -/
structure Band where
  x : UInt32
  y : UInt32
  width : UInt32
  height : UInt32
  deriving DecidableEq

namespace Band

/-- The band lies inside a picture of this size. -/
def Fits (band : Band) (width height : UInt32) : Prop :=
  band.x.toNat + band.width.toNat ≤ width.toNat ∧
    band.y.toNat + band.height.toNat ≤ height.toNat

instance (band : Band) (width height : UInt32) : Decidable (band.Fits width height) :=
  inferInstanceAs (Decidable (_ ∧ _))

/-- The pixel in column `x` of row `y` is one of the band's. -/
def Contains (band : Band) (x y : Nat) : Prop :=
  (band.x.toNat ≤ x ∧ x < band.x.toNat + band.width.toNat) ∧
    (band.y.toNat ≤ y ∧ y < band.y.toNat + band.height.toNat)

instance (band : Band) (x y : Nat) : Decidable (band.Contains x y) :=
  inferInstanceAs (Decidable (_ ∧ _))

/-- The band has no pixels. -/
def isEmpty (band : Band) : Bool := band.width == 0 || band.height == 0

/-- A band is empty exactly if it contains no pixel. -/
theorem isEmpty_iff (band : Band) : band.isEmpty = true ↔ ∀ x y, ¬ band.Contains x y := by
  simp only [isEmpty, Bool.or_eq_true, beq_iff_eq, Contains, ← UInt32.toNat_inj,
    UInt32.toNat_zero]
  constructor
  · intro empty x y
    omega
  · intro nowhere
    have corner := nowhere band.x.toNat band.y.toNat
    omega

def movedTo (band : Band) (x y : UInt32) : Band := { band with x, y }

def description (band : Band) : Description :=
  .closed "RowBand" [("x", .nat band.x.toNat), ("y", .nat band.y.toNat),
    ("width", .nat band.width.toNat), ("height", .nat band.height.toNat)]

end Band

end Raster
