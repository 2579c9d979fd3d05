import Mathlib.Logic.Function.Iterate
import Raster.Proofs.Blending
import Raster.Proofs.Layers
/-!
# Fading

A fill that blends moves every channel of its span a part of the way toward the color. Made again
and again it comes to an end, because the numbers are whole: where the share of the distance that
is left is rounded down to nothing, a channel stays (`lerp_of_near`). From below that is so as soon
as the distance times the weight is no more than 255. From above it is never so before the color
is reached, because rounding down then leads further (`lerp_of_gt`).

So there is a limit that can be told at the start (`fadeLimit`). A step neither changes nor passes
it and comes closer to it, unless it has been reached (`fadeLimit_lerp`, `lerp_closer`); the
distance is 255 at most, and so are the steps that it takes (`lerp_iterate`). What holds of numbers
is carried over to the channels of colors (`Color.channel_blend`) and from there to the pixels of a
span. `fills_fade` has all of it.
-/

namespace Raster

variable {f : PixelFormat} {weight : UInt8}

/-! ### Numbers -/

/-- Where `v` comes to stay when it is blended toward `k` again and again: on `k` if it comes from
above, and otherwise where the rest of the way is too short for the weight. -/
def fadeLimit (weight : UInt8) (v k : Int) : Int :=
  if k ≤ v then k else max v (k - 255 / weight.toNat)

section Numbers

variable {v k : Int}

/-- From above there is always a step down. -/
theorem lerp_of_gt (pos : 0 < weight.toNat) (above : k < v) :
    k ≤ lerp v k weight ∧ lerp v k weight < v := by
  refine ⟨(lerp_mem_of_ge weight above.le).1, ?_⟩
  have share : (k - v) * (weight.toNat : Int) < 0 :=
    Int.mul_neg_of_neg_of_pos (Int.sub_neg_of_lt above) (Int.natCast_pos.mpr pos)
  rw [lerp_eq_floor]
  omega

/-- From below there is none if the way is too short for the weight. -/
theorem lerp_of_near (below : v ≤ k) (near : (k - v) * weight.toNat ≤ 255) :
    lerp v k weight = v := by
  have share : 0 ≤ (k - v) * (weight.toNat : Int) :=
    Int.mul_nonneg (Int.sub_nonneg.mpr below) (Int.natCast_nonneg _)
  rw [lerp_eq_floor]
  omega

/-- And if there is one, it does not lead past the place where the way gets too short. -/
theorem lerp_of_far (pos : 0 < weight.toNat) (far : 255 < (k - v) * weight.toNat) :
    v < lerp v k weight ∧ lerp v k weight ≤ k - 255 / weight.toNat := by
  have full : (weight.toNat : Int) ≤ 255 := by
    have := weight.toNat_lt
    omega
  have short : 255 / (weight.toNat : Int) * weight.toNat ≤ 255 := Int.ediv_mul_le _ (by omega)
  -- The way is longer than one that is too short, by `rest`.
  obtain ⟨rest, split⟩ : ∃ rest, k - v = 255 / (weight.toNat : Int) + rest :=
    ⟨_, (add_sub_cancel _ _).symm⟩
  have some : 0 < rest := by
    refine Int.not_le.mp ?_
    intro none
    have less := Int.mul_le_mul_of_nonneg_right (show k - v ≤ 255 / (weight.toNat : Int) by omega)
      (Int.natCast_nonneg weight.toNat)
    omega
  have share : (k - v) * (weight.toNat : Int) ≤ 255 + rest * 255 := by
    rw [split, Int.add_mul]
    exact Int.add_le_add short (Int.mul_le_mul_of_nonneg_left full some.le)
  rw [lerp_eq_floor]
  omega

/-! ### Limits -/

theorem fadeLimit_of_ge (above : k ≤ v) : fadeLimit weight v k = k := if_pos above

theorem fadeLimit_of_near (pos : 0 < weight.toNat) (below : v < k)
    (near : (k - v) * weight.toNat ≤ 255) : fadeLimit weight v k = v := by
  have short : k - v ≤ 255 / (weight.toNat : Int) :=
    Int.le_ediv_of_mul_le (Int.natCast_pos.mpr pos) near
  rw [fadeLimit, if_neg (Int.not_le.mpr below)]
  omega

theorem fadeLimit_of_far (pos : 0 < weight.toNat) (below : v < k)
    (far : 255 < (k - v) * weight.toNat) : fadeLimit weight v k = k - 255 / weight.toNat := by
  have step := lerp_of_far pos far
  rw [fadeLimit, if_neg (Int.not_le.mpr below)]
  omega

/-- The way that is too short is not none, whatever the weight. -/
theorem short_pos (pos : 0 < weight.toNat) : 0 < 255 / (weight.toNat : Int) := by
  have full := weight.toNat_lt
  refine Int.le_ediv_of_mul_le (Int.natCast_pos.mpr pos) ?_
  omega

/-- A step has the same limit before it. -/
theorem fadeLimit_lerp (pos : 0 < weight.toNat) (v k : Int) :
    fadeLimit weight (lerp v k weight) k = fadeLimit weight v k := by
  rcases Int.lt_or_le v k with below | above
  · rcases Int.lt_or_le 255 ((k - v) * weight.toNat) with far | near
    · obtain ⟨later, before⟩ := lerp_of_far pos far
      have apart := short_pos pos
      rw [fadeLimit_of_far pos below far, fadeLimit, if_neg (by omega)]
      omega
    · rw [lerp_of_near below.le near]
  · rw [fadeLimit_of_ge above, fadeLimit_of_ge (lerp_mem_of_ge weight above).1]

/-- A step is closer to it, unless that is impossible. -/
theorem lerp_closer (pos : 0 < weight.toNat) {n : Nat}
    (near : |fadeLimit weight v k - v| ≤ (n + 1 : Nat)) :
    |fadeLimit weight v k - lerp v k weight| ≤ n := by
  rw [abs_le] at near ⊢
  rcases Int.lt_trichotomy v k with below | same | above
  · rcases Int.lt_or_le 255 ((k - v) * weight.toNat) with far | close
    · have step := lerp_of_far pos far
      rw [fadeLimit_of_far pos below far] at near ⊢
      omega
    · rw [fadeLimit_of_near pos below close, lerp_of_near below.le close]
      omega
  · subst same
    rw [fadeLimit_of_ge le_rfl, lerp_self]
    omega
  · have step := lerp_of_gt pos above
    rw [fadeLimit_of_ge above.le] at near ⊢
    omega

/-- As many steps as the limit is away lead there. -/
theorem lerp_iterate (pos : 0 < weight.toNat) {n : Nat}
    (near : |fadeLimit weight v k - v| ≤ n) :
    (lerp · k weight)^[n] v = fadeLimit weight v k := by
  induction n generalizing v with
  | zero => exact (Int.sub_eq_zero.mp (abs_nonpos_iff.mp near)).symm
  | succ n ih =>
      have closer := lerp_closer pos near
      rw [← fadeLimit_lerp pos] at closer
      rw [Function.iterate_succ_apply, ih closer, fadeLimit_lerp pos]

/-- The limit is no further away than samples are from each other. -/
theorem fadeLimit_near (pos : 0 < weight.toNat) (hv : 0 ≤ v ∧ v ≤ 255) (hk : 0 ≤ k ∧ k ≤ 255) :
    |fadeLimit weight v k - v| ≤ 255 := by
  have short := short_pos pos
  rw [abs_le, fadeLimit]
  split
  · omega
  · omega

/-- No step leads past the target, and none leads back. -/
theorem lerp_iterate_mono (weight : UInt8) (v k : Int) (n : Nat) :
    (v ≤ k → (lerp · k weight)^[n] v ≤ (lerp · k weight)^[n + 1] v ∧
      (lerp · k weight)^[n + 1] v ≤ k) ∧
    (k ≤ v → k ≤ (lerp · k weight)^[n + 1] v ∧
      (lerp · k weight)^[n + 1] v ≤ (lerp · k weight)^[n] v) := by
  induction n generalizing v with
  | zero => exact ⟨lerp_mem_of_le weight, lerp_mem_of_ge weight⟩
  | succ n ih =>
      obtain ⟨up, down⟩ := ih (lerp v k weight)
      exact ⟨fun below => up (lerp_mem_of_le weight below).2,
        fun above => down (lerp_mem_of_ge weight above).1⟩

end Numbers

/-! ### Channels -/

namespace Color

/-- A channel as a number; zero where there is none. -/
def channel (c : Color f) (i : Nat) : Int := Sample.toInt (c.channels.getD i 0)

theorem channel_mem (c : Color f) (i : Nat) : 0 ≤ c.channel i ∧ c.channel i ≤ 255 :=
  Sample.toInt_mem _

theorem length_channels (c d : Color f) : c.channels.length = d.channels.length := by
  cases c <;> cases d <;> rfl

theorem channel_of_le {c : Color f} {i : Nat} (beyond : c.channels.length ≤ i) :
    c.channel i = 0 := by
  rw [channel, List.getD_eq_getElem?_getD, List.getElem?_eq_none beyond]
  rfl

/-- Colors with the same channels are the same. -/
theorem ext_channel {c d : Color f} (same : ∀ i, c.channel i = d.channel i) : c = d := by
  have sample : ∀ i, c.channels.getD i 0 = d.channels.getD i 0 :=
    fun i => UInt8.toNat_inj.mp (Int.ofNat_inj.mp (same i))
  cases c with
  | gray y =>
      cases d
      exact congrArg gray (sample 0)
  | rgb565 p =>
      cases d with
      | rgb565 q =>
          have red : Rgb565.red p = Rgb565.red q := sample 0
          have green : Rgb565.green p = Rgb565.green q := sample 1
          have blue : Rgb565.blue p = Rgb565.blue q := sample 2
          rw [← Rgb565.pack_fields p, red, green, blue, Rgb565.pack_fields]
  | bgra b g r a =>
      cases d
      exact bgra.injEq .. ▸ ⟨sample 0, sample 1, sample 2, sample 3⟩

/-- A blend is one of every channel. -/
theorem channel_blend (weight : UInt8) (d c : Color f) (i : Nat) :
    (zipChannels (Sample.lerp · · weight) d c).channel i =
      lerp (d.channel i) (c.channel i) weight := by
  have length := d.length_channels c
  by_cases inside : i < d.channels.length
  · have inside' : i < c.channels.length := length ▸ inside
    have zipped : (List.zipWith (Sample.lerp · · weight) d.channels c.channels)[i]? =
        some (Sample.lerp d.channels[i] c.channels[i] weight) := by
      rw [List.getElem?_zipWith, List.getElem?_eq_getElem inside, List.getElem?_eq_getElem inside']
    simp only [channel, channels_blend, List.getD_eq_getElem?_getD, zipped,
      List.getElem?_eq_getElem inside, List.getElem?_eq_getElem inside', Option.getD_some,
      Sample.toInt_lerp]
  · have beyond := Nat.le_of_not_lt inside
    have none : d.channel i = 0 := channel_of_le beyond
    have none' : c.channel i = 0 := channel_of_le (length ▸ beyond)
    rw [none, none', lerp_self]
    exact channel_of_le ((length_channels _ d).trans_le beyond)

/-- So are blends again and again. -/
theorem channel_blend_iterate (weight : UInt8) (d c : Color f) (n i : Nat) :
    ((zipChannels (Sample.lerp · · weight) · c)^[n] d).channel i =
      (lerp · (c.channel i) weight)^[n] (d.channel i) := by
  have step : Function.Semiconj (channel · i) (zipChannels (Sample.lerp · · weight) · c)
      (lerp · (c.channel i) weight) := fun d => channel_blend weight d c i
  exact step.iterate_right n d

/-- `path` is what becomes of a color when `c` is blended onto it once, twice and so on. -/
structure FadesTo (weight : UInt8) (c : Color f) (path : Nat → Color f) : Prop where
  /-- Every channel moves toward that of `c`, from whichever side it comes. -/
  toward : ∀ n i, ((path 0).channel i ≤ c.channel i →
      (path n).channel i ≤ (path (n + 1)).channel i ∧
        (path (n + 1)).channel i ≤ c.channel i) ∧
    (c.channel i ≤ (path 0).channel i →
      c.channel i ≤ (path (n + 1)).channel i ∧
        (path (n + 1)).channel i ≤ (path n).channel i)
  /-- After 255 times at most, every channel is at its limit. -/
  limit : weight ≠ 0 → ∀ n, 255 ≤ n → ∀ i,
    (path n).channel i = fadeLimit weight ((path 0).channel i) (c.channel i)

theorem fadesTo_iterate (weight : UInt8) (d c : Color f) :
    c.FadesTo weight fun n => (zipChannels (Sample.lerp · · weight) · c)^[n] d where
  toward := by
    intro n i
    simp only [channel_blend_iterate, Function.iterate_zero_apply]
    exact lerp_iterate_mono weight (d.channel i) (c.channel i) n
  limit := by
    intro some n late i
    rw [channel_blend_iterate]
    have pos : 0 < weight.toNat := Nat.pos_of_ne_zero fun none => some (UInt8.toNat_inj.mp none)
    have near := fadeLimit_near pos (d.channel_mem i) (c.channel_mem i)
    exact lerp_iterate pos (near.trans (Int.ofNat_le.mpr late))

/-- Colors that have come to their limits stay as they are. -/
theorem blend_iterate_settled (some : weight ≠ 0) (d c : Color f) {n : Nat} (late : 255 ≤ n) :
    (zipChannels (Sample.lerp · · weight) · c)^[n] d =
      (zipChannels (Sample.lerp · · weight) · c)^[255] d := by
  have fades := fadesTo_iterate weight d c
  refine ext_channel ?_
  intro i
  rw [fades.limit some n late i, fades.limit some 255 le_rfl i]

theorem blend_zero (d c : Color f) : zipChannels (Sample.lerp · · 0) d c = d := by
  refine ext_channel ?_
  intro i
  rw [channel_blend, lerp_zero]

end Color

/-! ### Pixels -/

/-- A color that is drawn onto a band again and again. -/
theorem Layer.paint_fill_iterate {s : PixelFormat} (op : Operation f s) (band : Band) (c : Color s)
    (m x y : Nat) (d : Color f) :
    ((fill op band c).paint x y)^[m] d =
      band.inside (fun _ _ d => (op.result · c)^[m] d) x y d := by
  by_cases within : band.Contains x y
  · have drawn : (fill op band c).paint x y = (op.result · c) := funext (paint_of_contains within)
    rw [drawn, Band.inside_of_contains within]
  · have kept : (fill op band c).paint x y = id := funext (paint_of_not_contains within)
    rw [kept, Function.iterate_id, Band.inside_of_not_contains within]
    rfl

/-- A request that is granted comes to its layer as often as it is made. -/
theorem Drawing.inTurn_replicate {g : Geometry} {drawing : Drawing f} {layer : Layer f}
    (answers : drawing.Answers g (.ok ()) layer) (pools : Nat → Pool) (m : Nat)
    (fb : Framebuffer f) (geometry : fb.toGeometry = g) :
    inTurn pools (List.replicate m drawing) fb =
      .finished (fb.mapPixels fun x y d => (layer.paint x y)^[m] d) := by
  induction m generalizing pools fb with
  | zero => exact congrArg Outcome.finished fb.mapPixels_id.symm
  | succ m ih =>
      have first : drawing.outcome (pools 0) fb = .finished (fb.mapPixels layer.paint) :=
        answers (pools 0) fb geometry
      rw [List.replicate_succ, inTurn, first, Outcome.finished_andThen,
        ih _ (fb.mapPixels layer.paint) geometry, Framebuffer.mapPixels_mapPixels]
      rfl

/-- `fbs n` is what `n` fills of one span leave of `fb`, one after the other, which blend `c` onto
its pixels. -/
structure Framebuffer.Fades (fb : Framebuffer f) (weight : UInt8) (x y n : UInt32) (c : Color f)
    (fbs : Nat → Framebuffer f) : Prop where
  fills : ∀ m pools, Drawing.inTurn pools
    (List.replicate m (.fillSpan (.blend weight) x y n c)) fb = .finished (fbs m)
  /-- The pixels of the span fade. -/
  inside : ∀ X Y, (Band.ofSpan x y n).Contains X Y →
    ∃ path, (∀ m, (fbs m).pixel? X Y = some (path m)) ∧ c.FadesTo weight path
  /-- All others are as before. -/
  outside : ∀ m X Y, ¬ (Band.ofSpan x y n).Contains X Y → (fbs m).pixel? X Y = fb.pixel? X Y
  /-- From the 255th fill on nothing changes. -/
  settled : weight ≠ 0 → ∀ m, 255 ≤ m → fbs m = fbs 255
  /-- Without weight nothing does. -/
  still : weight = 0 → ∀ m, fbs m = fb

namespace Framebuffer

variable {fb : Framebuffer f} {x y n : UInt32}

/-- What they leave. -/
def faded (fb : Framebuffer f) (weight : UInt8) (x y n : UInt32) (c : Color f) (m : Nat) :
    Framebuffer f :=
  fb.mapPixels ((Band.ofSpan x y n).inside fun _ _ d =>
    (Color.zipChannels (Sample.lerp · · weight) · c)^[m] d)

theorem inTurn_fills (inside : fb.HasSpan x y n) (weight : UInt8) (c : Color f) (m : Nat)
    (pools : Nat → Pool) :
    Drawing.inTurn pools (List.replicate m (.fillSpan (.blend weight) x y n c)) fb =
      .finished (fb.faded weight x y n c m) := by
  have manned := Drawing.manned_fillSpan (.blend weight) c inside
  rw [Drawing.inTurn_replicate (manned.answers trivial) pools m fb rfl]
  simp only [Layer.paint_fill_iterate]
  rfl

/-- Fills that come to the same in every pixel of the span come to the same. -/
theorem faded_congr {weight : UInt8} {c : Color f} {m m' : Nat}
    (same : ∀ d, (Color.zipChannels (Sample.lerp · · weight) · c)^[m] d =
      (Color.zipChannels (Sample.lerp · · weight) · c)^[m'] d) :
    fb.faded weight x y n c m = fb.faded weight x y n c m' := by
  simp only [faded, same]

theorem fades (inside : fb.HasSpan x y n) (weight : UInt8) (c : Color f) :
    fb.Fades weight x y n c (fb.faded weight x y n c) where
  fills := inTurn_fills inside weight c
  inside := by
    intro X Y within
    obtain ⟨row, column⟩ := inside
    obtain ⟨rfl, low, high⟩ := Band.contains_ofSpan.mp within
    refine ⟨_, ?_, Color.fadesTo_iterate weight (fb.color X y.toNat) c⟩
    intro m
    rw [faded, fb.pixel?_mapPixels_of_lt _ (by omega) row, Band.inside_of_contains within]
  outside := by
    intro m X Y beside
    have kept : (Band.ofSpan x y n).inside (fun _ _ (d : Color f) =>
        (Color.zipChannels (Sample.lerp · · weight) · c)^[m] d) X Y = id :=
      funext fun _ => Band.inside_of_not_contains beside
    rw [faded, pixel?_mapPixels, kept, Option.map_id, id_eq]
  settled := fun some _ late => faded_congr fun d => Color.blend_iterate_settled some d c late
  still := by
    rintro rfl m
    have same : fb.faded 0 x y n c m = fb.faded 0 x y n c 0 := by
      refine faded_congr ?_
      intro d
      have kept : (Color.zipChannels (Sample.lerp · · 0) · c) = id :=
        funext fun d => d.blend_zero c
      rw [kept, Function.iterate_id, Function.iterate_id]
    have none := inTurn_fills inside 0 c 0 default
    rw [same]
    exact (Outcome.finished.inj none).symm

/-- A span that lies in its picture is filled as often as one likes, with a blend toward one color.
Every channel of its pixels moves toward that of the color and is at its limit after 255 fills at
the latest: at the color's, if it came from above or was there, and otherwise as much below it as
255 divided by the weight, or where it started if that is nearer. From then on nothing changes at
all, and nothing ever does without weight. -/
theorem fills_fade (fb : Framebuffer f) (weight : UInt8) {x y n : UInt32} (c : Color f)
    (inside : fb.HasSpan x y n) : ∃ fbs, fb.Fades weight x y n c fbs :=
  ⟨_, fades inside weight c⟩

/-- The two pixels of the upper row of a picture stored bottom up. -/
theorem fills_fade_row :
    let fb : Framebuffer .gray8 := ⟨⟨2, 2, .bottomUp⟩, #[1, 2, 255, 20], rfl, by decide⟩
    fb.HasSpan 0 0 2 ∧ ∃ fbs, fb.Fades 50 0 0 2 (.gray 100) fbs := by
  intro fb
  have inside : fb.HasSpan 0 0 2 := ⟨by decide, by decide⟩
  exact ⟨inside, fills_fade fb 50 (.gray 100) inside⟩

end Framebuffer

end Raster
