import Mathlib.Algebra.Group.Nat.Defs
import Raster.Proofs.RowOrder
import Raster.Proofs.Layers
import Raster.Proofs.Table
/-!
# Exported pictures

A picture is exported in RGBA, which no format has for its own. What that leaves of a color is all
there is to it, apart from an alpha that is not full: the field of an `rgb565` color is the high
bits of the sample that it is shown as (`Rgb565.shown_div`), the luma of a gray is its luminosity,
and so the color of the exported red, green and blue is the color that was exported
(`Color.ofRgb_rgba`).

A picture counts from the top left, in whichever order the rows of its framebuffer lie. So a
framebuffer of the same size can be drawn from it pixel by pixel, again with its rows in either
order, and has the pixels of the first one in the end. `picture_rebuilds` says this, and that
framebuffers with the same picture are alike.
-/

namespace Raster

variable {f : PixelFormat}

/-! ### Colors -/

namespace Rgb565

/-- What is shown of a level whose field has `spare` bits fewer than a sample: the level, and its
highest bits once more in the spare ones. -/
def shown (spare level : Nat) : Nat := level * 2 ^ spare + level / 2 ^ (8 - 2 * spare)

variable {spare : Nat} {level : UInt8}

/-- The bits that are repeated are as many as are spare. -/
theorem repeated_lt {level : Nat} (small : spare ≤ 4) (fits : level < 2 ^ (8 - spare)) :
    level / 2 ^ (8 - 2 * spare) < 2 ^ spare := by
  rw [Nat.div_lt_iff_lt_mul (Nat.two_pow_pos _), ← Nat.pow_add]
  have width : spare + (8 - 2 * spare) = 8 - spare := by omega
  rwa [width]

theorem toNat_shown {left right : UInt8} (hleft : left.toNat = spare)
    (hright : right.toNat = 8 - 2 * spare) (pos : 0 < spare) (small : spare ≤ 4)
    (fits : level.toNat < 2 ^ (8 - spare)) :
    (level <<< left ||| level >>> right).toNat = shown spare level.toNat := by
  have sample : level.toNat * 2 ^ spare < 256 := by
    have width : 8 - spare + spare = 8 := by omega
    have := Nat.mul_lt_mul_of_pos_right fits (Nat.two_pow_pos spare)
    rwa [← Nat.pow_add, width] at this
  rw [UInt8.toNat_or, UInt8.toNat_shiftLeft, UInt8.toNat_shiftRight, hleft, hright,
    Nat.mod_eq_of_lt (show spare < 8 by omega), Nat.mod_eq_of_lt (show 8 - 2 * spare < 8 by omega),
    Nat.shiftLeft_eq, Nat.mod_eq_of_lt sample, Nat.shiftRight_eq_div_pow, ← Nat.shiftLeft_eq,
    ← Nat.shiftLeft_add_eq_or_of_lt (repeated_lt small fits), Nat.shiftLeft_eq, shown]

/-- The high bits of what is shown are the level. -/
theorem shown_div {level : Nat} (small : spare ≤ 4) (fits : level < 2 ^ (8 - spare)) :
    shown spare level / 2 ^ spare = level := by
  rw [shown, Nat.mul_comm, Nat.mul_add_div (Nat.two_pow_pos spare),
    Nat.div_eq_of_lt (repeated_lt small fits), Nat.add_zero]

theorem shiftRight_of_shown {sample count : UInt8} (hcount : count.toNat = spare)
    (small : spare ≤ 4) (fits : level.toNat < 2 ^ (8 - spare))
    (h : sample.toNat = shown spare level.toNat) : sample >>> count = level := by
  refine UInt8.toNat_inj.mp ?_
  rw [UInt8.toNat_shiftRight, hcount, Nat.mod_eq_of_lt (by omega), h, Nat.shiftRight_eq_div_pow,
    shown_div small fits]

end Rgb565

namespace Color

open Rgb565 in
theorem rgba_rgb565 (p : UInt16) :
    (rgb565 p).rgba.red.toNat = shown 3 (red p).toNat ∧
    (rgb565 p).rgba.green.toNat = shown 2 (green p).toNat ∧
    (rgb565 p).rgba.blue.toNat = shown 3 (blue p).toNat :=
  ⟨toNat_shown rfl rfl (by decide) (by decide) (red_lt p),
    toNat_shown rfl rfl (by decide) (by decide) (green_lt p),
    toNat_shown rfl rfl (by decide) (by decide) (blue_lt p)⟩

/-- Only `bgra8888` has colors that are not opaque. -/
theorem alpha_rgba_of_ne (format : f ≠ .bgra8888) (c : Color f) : c.rgba.alpha = 0xff := by
  cases c with
  | gray y => rfl
  | rgb565 p => rfl
  | bgra b g r a => exact absurd rfl format

/-- An opaque color is that of the red, green and blue that it is exported as. -/
theorem ofRgb_rgba (c : Color f) (full : c.rgba.alpha = 0xff) :
    ofRgb f c.rgba.red c.rgba.green c.rgba.blue = c := by
  cases c with
  | gray y =>
      -- The weights of the luma add up to 256.
      refine congrArg gray (UInt8.toNat_inj.mp ?_)
      have := y.toNat_lt
      simp [rgba, Nat.shiftRight_eq_div_pow]
      omega
  | rgb565 p =>
      obtain ⟨red, green, blue⟩ := rgba_rgb565 p
      rw [ofRgb, Rgb565.shiftRight_of_shown rfl (by decide) (Rgb565.red_lt p) red,
        Rgb565.shiftRight_of_shown rfl (by decide) (Rgb565.green_lt p) green,
        Rgb565.shiftRight_of_shown rfl (by decide) (Rgb565.blue_lt p) blue, Rgb565.pack_fields]
  | bgra b g r a => exact congrArg (bgra b g r) full.symm

end Color

/-! ### Pictures and framebuffers -/

namespace Picture

/-- The pixel in column `x` of row `y` as a color of format `f`, or the zero color where there is
none. -/
def color (p : Picture) (f : PixelFormat) (x y : Nat) : Color f :=
  (p.pixel? x y).elim default fun c => .ofRgb f c.red c.green c.blue

/-- Requests that draw the pixels in some places, one after the other. -/
def writes (p : Picture) (f : PixelFormat) (places : List (UInt32 × UInt32)) : List (Drawing f) :=
  places.map fun (x, y) => .fillSpan .copy x y 1 (p.color f x.toNat y.toNat)

/-- What these requests draw. -/
def written (p : Picture) (f : PixelFormat) (places : List (UInt32 × UInt32)) : List (Layer f) :=
  places.map fun (x, y) => .fill .copy (.ofSpan x y 1) (p.color f x.toNat y.toNat)

theorem inTurn_writes (p : Picture) {canvas : Framebuffer f} {places : List (UInt32 × UInt32)}
    (inside : ∀ x y, (x, y) ∈ places → canvas.HasSpan x y 1) (pools : Nat → Pool) :
    Drawing.inTurn pools (p.writes f places) canvas =
      .finished (canvas.mapPixels (Layer.paintAll (p.written f places))) := by
  refine Drawing.inTurn_eq_mapPixels ?_ pools canvas rfl
  rw [writes, written, List.forall₂_map_left_iff, List.forall₂_map_right_iff, List.forall₂_same]
  rintro ⟨x, y⟩ mem
  exact (Drawing.manned_fillSpan .copy _ (inside x y mem)).answers trivial

/-- A place that is among them gets its pixel, also where it is drawn again. -/
theorem paintAll_written (p : Picture) {places : List (UInt32 × UInt32)} {x y : UInt32}
    (mem : (x, y) ∈ places) (d : Color f) :
    Layer.paintAll (p.written f places) x.toNat y.toNat d = p.color f x.toNat y.toNat := by
  refine Layer.paintAll_of_agree ?_ ⟨_, List.mem_map_of_mem mem, ?_⟩ d
  · intro layer among here d
    obtain ⟨⟨x', y'⟩, -, rfl⟩ := List.mem_map.mp among
    obtain ⟨row, low, high⟩ := Band.contains_ofSpan.mp here
    rw [UInt32.toNat_one] at high
    have column : x.toNat = x'.toNat := by omega
    rw [row, column]
    rfl
  · exact Band.contains_ofSpan.mpr ⟨rfl, Nat.le_refl _, Nat.lt_succ_self _⟩

end Picture

namespace Framebuffer

/-- Every pixel is opaque. -/
def FullAlpha (fb : Framebuffer f) : Prop := ∀ x y c, fb.pixel? x y = some c → c.rgba.alpha = 0xff

variable {fb fb' canvas : Framebuffer f}

theorem fullAlpha_of (full : f = .bgra8888 → fb.FullAlpha) : fb.FullAlpha := by
  by_cases format : f = .bgra8888
  · exact full format
  · exact fun _ _ c _ => Color.alpha_rgba_of_ne format c

theorem pixel?_picture (fb : Framebuffer f) (x y : Nat) :
    fb.picture.pixel? x y = (fb.pixel? x y).map Color.rgba := by
  have width : fb.picture.width = fb.width := rfl
  have height : fb.picture.height = fb.height := rfl
  rw [Picture.pixel?, width, height]
  split
  · next inside =>
      rw [getElem?_picture, Nat.mul_comm, Nat.mul_add_mod, Nat.mod_eq_of_lt inside.1,
        Nat.mul_add_div (Nat.zero_lt_of_lt inside.1), Nat.div_eq_of_lt inside.1, Nat.add_zero]
  · next outside =>
      rw [pixel?, if_neg outside]
      rfl

/-- What is exported is read back. -/
theorem color_picture (full : fb.FullAlpha) (x y : Nat) :
    fb.picture.color f x y = fb.color x y := by
  rw [Picture.color, pixel?_picture, color]
  cases there : fb.pixel? x y with
  | none => rfl
  | some c => exact c.ofRgb_rgba (full x y c there)

/-- A framebuffer of the size of a picture, with whatever is in it, has the pixels that the
picture was exported from when all places have been drawn, in whatever order. -/
theorem exists_rebuilt (full : fb.FullAlpha) (width : canvas.width = fb.width)
    (height : canvas.height = fb.height) {places : List (UInt32 × UInt32)}
    (all : ∀ x y, (x, y) ∈ places ↔ x < fb.width ∧ y < fb.height) (pools : Nat → Pool) :
    ∃ rebuilt, Drawing.inTurn pools (fb.picture.writes f places) canvas = .finished rebuilt ∧
      rebuilt.toGeometry = canvas.toGeometry ∧ ∀ x y, rebuilt.pixel? x y = fb.pixel? x y := by
  refine ⟨_, fb.picture.inTurn_writes ?_ pools, rfl, Alike.pixels (.of_inside width height ?_)⟩
  · intro x y mem
    obtain ⟨column, row⟩ := (all x y).mp mem
    rw [UInt32.lt_iff_toNat_lt] at column row
    refine ⟨height ▸ row, ?_⟩
    rw [width, UInt32.toNat_one]
    exact column
  · intro x y hx hy
    have column : (UInt32.ofNat x).toNat = x :=
      UInt32.toNat_ofNat_of_lt' (Nat.lt_trans hx canvas.width.toNat_lt)
    have row : (UInt32.ofNat y).toNat = y :=
      UInt32.toNat_ofNat_of_lt' (Nat.lt_trans hy canvas.height.toNat_lt)
    have mem : (UInt32.ofNat x, UInt32.ofNat y) ∈ places := by
      rw [all, UInt32.lt_iff_toNat_lt, UInt32.lt_iff_toNat_lt, column, row]
      exact ⟨width ▸ hx, height ▸ hy⟩
    have drawn := fb.picture.paintAll_written mem (canvas.color x y)
    rw [column, row, color_picture full] at drawn
    rw [canvas.pixel?_mapPixels_of_lt _ hx hy, drawn,
      fb.pixel?_eq_color (width ▸ hx) (height ▸ hy)]

/-- A picture tells what it was exported from, but for the order of rows. -/
theorem alike_of_picture (full : fb.FullAlpha) (full' : fb'.FullAlpha)
    (same : fb.picture = fb'.picture) : fb.Alike fb' := by
  have width : fb.width = fb'.width := congrArg Picture.width same
  have height : fb.height = fb'.height := congrArg Picture.height same
  refine .of_inside width height ?_
  intro x y hx hy
  rw [fb.pixel?_eq_color hx hy, fb'.pixel?_eq_color (width ▸ hx) (height ▸ hy),
    ← color_picture full, ← color_picture full', same]

/-- The picture of a framebuffer has its size and shows its pixels, counted from the top left. If
all of them are opaque, which can only fail in `bgra8888`, the picture has lost nothing. A
framebuffer of the same size, in either order of rows, has all the pixels of the first one when
those of the picture have been drawn into every place; and another framebuffer like that with the
same picture has the same pixels. -/
theorem picture_rebuilds (fb : Framebuffer f) (full : f = .bgra8888 → fb.FullAlpha) :
    fb.picture.width = fb.width ∧ fb.picture.height = fb.height ∧
    (∀ x y, fb.picture.pixel? x y = (fb.pixel? x y).map Color.rgba) ∧
    (∀ (canvas : Framebuffer f) (places : List (UInt32 × UInt32)) (pools : Nat → Pool),
      canvas.width = fb.width → canvas.height = fb.height →
      (∀ x y, (x, y) ∈ places ↔ x < fb.width ∧ y < fb.height) →
      ∃ rebuilt, Drawing.inTurn pools (fb.picture.writes f places) canvas = .finished rebuilt ∧
        rebuilt.toGeometry = canvas.toGeometry ∧ ∀ x y, rebuilt.pixel? x y = fb.pixel? x y) ∧
    ∀ fb' : Framebuffer f, (f = .bgra8888 → fb'.FullAlpha) → fb.picture = fb'.picture →
      fb.Alike fb' := by
  have solid := fullAlpha_of full
  refine ⟨rfl, rfl, fb.pixel?_picture, ?_, ?_⟩
  · intro canvas places pools width height all
    exact exists_rebuilt solid width height all pools
  · intro fb' full' same
    exact alike_of_picture solid (fullAlpha_of full') same

/-- A column of two opaque pixels, stored from the bottom up, is drawn again from the top down. -/
theorem picture_rebuilds_column :
    let fb : Framebuffer .bgra8888 :=
      ⟨⟨1, 2, .bottomUp⟩, #[1, 2, 3, 255, 4, 5, 6, 255], rfl, by decide⟩
    let canvas : Framebuffer .bgra8888 :=
      ⟨⟨1, 2, .topDown⟩, #[9, 9, 9, 9, 9, 9, 9, 9], rfl, by decide⟩
    ∀ pools, ∃ rebuilt,
      Drawing.inTurn pools (fb.picture.writes .bgra8888 [(0, 1), (0, 0)]) canvas =
        .finished rebuilt ∧
      rebuilt.toGeometry = canvas.toGeometry ∧ ∀ x y, rebuilt.pixel? x y = fb.pixel? x y := by
  intro fb canvas pools
  have full : fb.FullAlpha := by
    have pixels : ∀ x < 1, ∀ y < 2, ∀ c ∈ fb.pixel? x y, c.rgba.alpha = 0xff := by decide
    intro x y c there
    obtain ⟨column, row⟩ := (fb.isSome_pixel? x y).mp (there ▸ rfl)
    exact pixels x column y row c there
  have all : ∀ x y : UInt32, (x, y) ∈ [((0 : UInt32), (1 : UInt32)), (0, 0)] ↔ x < 1 ∧ y < 2 := by
    intro x y
    simp only [List.mem_cons, List.not_mem_nil, or_false, Prod.mk.injEq, ← UInt32.toNat_inj,
      UInt32.lt_iff_toNat_lt, UInt32.reduceToNat]
    omega
  obtain ⟨-, -, -, rebuilds, -⟩ := picture_rebuilds fb fun _ => full
  exact rebuilds canvas _ pools rfl rfl all

end Framebuffer

end Raster
