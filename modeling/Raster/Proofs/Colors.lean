import Mathlib.Data.Nat.Digits.Defs
import Raster.Color.Word
import Raster.Proofs.Equality
/-!
# Colors in and out of buffers

A color is put into bytes and taken out of bytes one at a time. Done place by place, that makes a
buffer of whole pixels the same thing as a list of colors: `decodeAll?` and `encodeAll` are inverse
to each other (`decodeAll?_eq_some_iff`, `encodeAll_eq_ok`), and what is done to a pixel at a
location is done to one color of the list (`colors_of_buffer`).

The word of a color is the number that its bytes spell, the lowest first
(`Color.wordValue_toWord`).
-/

namespace Raster

variable {f : PixelFormat}

/-! ### Words and bytes -/

/-- The number that a word is. -/
def PixelFormat.wordValue : (f : PixelFormat) → f.Word → Nat
  | .gray8, (w : UInt8) => w.toNat
  | .rgb565, (w : UInt16) => w.toNat
  | .bgra8888, (w : UInt32) => w.toNat

/-- The number that bytes spell, the lowest first. -/
def littleEndianValue (ys : List UInt8) : Nat := Nat.ofDigits 256 (ys.map UInt8.toNat)

theorem Color.wordValue_toWord (c : Color f) :
    f.wordValue c.toWord = littleEndianValue c.bytes := by
  cases c with
  | gray y => simp [PixelFormat.wordValue, toWord, littleEndianValue, bytes]
  | rgb565 p =>
      have joined := toNat_joinBytes p.toUInt8 (p >>> 8).toUInt8
      rw [joinBytes_split] at joined
      simp only [PixelFormat.wordValue, toWord, littleEndianValue, bytes, List.map_cons,
        List.map_nil, Nat.ofDigits_cons, Nat.ofDigits_nil, joined]
      omega
  | bgra b g r a =>
      simp only [PixelFormat.wordValue, toWord, toNat_toWord_bgra, littleEndianValue, bytes,
        List.map_cons, List.map_nil, Nat.ofDigits_cons, Nat.ofDigits_nil]
      omega

namespace Buffer

variable {b b' : Buffer} {cs : List (Color f)} {k i : Nat}

/-! ### All the colors of a buffer -/

/-- Every pixel of a buffer taken out of its bytes. What is left over at the end is no pixel. -/
def decodeAll? (f : PixelFormat) (b : Buffer) : Option (List (Color f)) :=
  (b.pieces f.bytesPerPixel (b.size / f.bytesPerPixel)).mapM (Color.ofBytes? f)

/-- Every color put into the bytes of its place. -/
def encodeAll (cs : List (Color f)) (b : Buffer) : Except Fault Buffer := do
  let pieces ← (cs.zip (b.pieces f.bytesPerPixel cs.length)).mapM fun (c, ys) => c.encodeInto ys
  return pieces.flatten.toArray

/-- The bytes of colors, one color after the other. -/
def ofColors (cs : List (Color f)) : Buffer := (cs.map Color.bytes).flatten.toArray

@[simp] theorem size_ofColors (cs : List (Color f)) :
    (ofColors cs).size = cs.length * f.bytesPerPixel := by
  induction cs with
  | nil =>
      rw [List.length_nil, Nat.zero_mul]
      rfl
  | cons c cs ih =>
      rw [ofColors, List.size_toArray] at ih ⊢
      rw [List.map_cons, List.flatten_cons, List.length_append, ih, Color.length_bytes,
        List.length_cons, Nat.succ_mul, Nat.add_comm]

theorem mapM_eq_some_iff {α β : Type} {g : α → Option β} {xs : List α} {ys : List β} :
    xs.mapM g = some ys ↔ xs.map g = ys.map some := by
  induction xs generalizing ys with
  | nil => cases ys <;> simp
  | cons x xs ih =>
      rw [List.mapM_cons]
      cases ys with
      | nil => simp [Option.bind_eq_some_iff]
      | cons y ys => simp [Option.bind_eq_some_iff, ih]

/-- A buffer of whole pixels is decoded to the colors that are in its places. -/
theorem decodeAll?_eq_some_iff (size : b.size = k * f.bytesPerPixel) :
    decodeAll? f b = some cs ↔ cs.length = k ∧ ∀ i < k, cell? f b i = cs[i]? := by
  have count : b.size / f.bytesPerPixel = k := by
    rw [size, Nat.mul_div_cancel k f.bytesPerPixel_pos]
  have cells : (b.pieces f.bytesPerPixel k).map (Color.ofBytes? f) =
      (List.range k).map (cell? f b) := by
    rw [pieces, List.map_map]
    refine List.map_congr_left ?_
    intro i _
    rw [cell?, colorAt?, ← Nat.succ_mul]
    rfl
  rw [decodeAll?, count, mapM_eq_some_iff, cells]
  constructor
  · intro same
    have length : cs.length = k := by simpa using (congrArg List.length same).symm
    refine ⟨length, ?_⟩
    intro i hi
    have there : i < cs.length := length ▸ hi
    have one := congrArg (·[i]?) same
    simpa [hi, there] using one
  · rintro ⟨rfl, same⟩
    refine List.ext_getElem (by simp) ?_
    intro i hi hi'
    have there : i < cs.length := by simpa using hi'
    simp [same i there, there]

/-- A place in the bytes of colors has the color with its number. -/
theorem cell?_ofColors (hi : i < cs.length) : cell? f (ofColors cs) i = cs[i]? := by
  rw [List.getElem?_eq_getElem hi]
  refine cell?_of_getElem? ?_
  intro k hk
  have even : ∀ ys ∈ cs.map Color.bytes, ys.length = f.bytesPerPixel := by simp
  rw [ofColors, List.getElem?_toArray, getElem?_flatten_of_length even i hk, List.getElem?_map,
    List.getElem?_eq_getElem hi]
  rfl

theorem decodeAll?_ofColors (cs : List (Color f)) : decodeAll? f (ofColors cs) = some cs :=
  (decodeAll?_eq_some_iff (size_ofColors cs)).mpr ⟨rfl, fun _ hi => cell?_ofColors hi⟩

theorem exists_decodeAll? (size : b.size = k * f.bytesPerPixel) :
    ∃ cs : List (Color f), cs.length = k ∧ decodeAll? f b = some cs := by
  have length : ((List.range k).map (b.color f)).length = k := by simp
  refine ⟨_, length, (decodeAll?_eq_some_iff size).mpr ⟨length, ?_⟩⟩
  intro i hi
  have inside : (i + 1) * f.bytesPerPixel ≤ b.size := size ▸ Nat.mul_le_mul_right _ hi
  rw [cell?_eq_color inside, List.getElem?_map, List.getElem?_range hi, Option.map_some]

/-- Buffers of as many whole pixels that are decoded to the same colors are the same. -/
theorem decodeAll?_inj (size : b.size = k * f.bytesPerPixel) (size' : b'.size = k * f.bytesPerPixel)
    (read : decodeAll? f b = some cs) (read' : decodeAll? f b' = some cs) : b = b' := by
  obtain ⟨-, cells⟩ := (decodeAll?_eq_some_iff size).mp read
  obtain ⟨-, cells'⟩ := (decodeAll?_eq_some_iff size').mp read'
  refine ext_places size size' ?_
  intro i hi
  rw [cells i hi, cells' i hi]

/-- Colors that each have a place of their size are put there as they are. -/
theorem mapM_encodeInto (cs : List (Color f)) {pieces : List (List UInt8)}
    (count : pieces.length = cs.length)
    (even : ∀ ys ∈ pieces, ys.length = f.bytesPerPixel) :
    (cs.zip pieces).mapM (fun (c, ys) => c.encodeInto ys) = .ok (cs.map Color.bytes) := by
  induction cs generalizing pieces with
  | nil => rfl
  | cons c cs ih =>
      obtain ⟨ys, rest, rfl⟩ := List.exists_cons_of_length_eq_add_one count
      obtain ⟨first, later⟩ := List.forall_mem_cons.mp even
      have others := ih (Nat.succ.inj count) later
      rw [List.zip_cons_cons, List.mapM_cons, others]
      simp only [c.encodeInto_of_length first]
      rfl

/-- Encoding overwrites a buffer of the right size, whatever it was. -/
theorem encodeAll_eq_ok (size : b.size = cs.length * f.bytesPerPixel) :
    encodeAll cs b = .ok (ofColors cs) := by
  have put := mapM_encodeInto cs (b.length_pieces f.bytesPerPixel cs.length)
    fun ys mem => length_of_mem_pieces size mem
  rw [encodeAll, put]
  rfl

/-! ### One color of a buffer -/

/-- A pixel that is written is the new color with its number. -/
theorem decodeAll?_mapCells_inPlace (size : b.size = k * f.bytesPerPixel)
    (read : decodeAll? f b = some cs) (i : Nat) (d : Color f) :
    decodeAll? f (mapCells (inPlace i fun _ => d) b) = some (cs.set i d) := by
  obtain ⟨length, cells⟩ := (decodeAll?_eq_some_iff size).mp read
  refine (decodeAll?_eq_some_iff ((size_mapCells ..).trans size)).mpr ⟨?_, ?_⟩
  · rw [List.length_set, length]
  · intro j hj
    rw [cell?_mapCells, cells j hj, List.getElem?_set]
    by_cases same : i = j
    · subst same
      have there : i < cs.length := length ▸ hj
      rw [if_pos rfl, if_pos there, List.getElem?_eq_getElem there, inPlace_self, Option.map_some]
    · rw [if_neg same, inPlace_of_ne (Ne.symm same), Option.map_id']

/-- What a buffer that holds some colors has at the location with the number `i`: the color with
this number. -/
structure PixelOf (b : Buffer) (cs : List (Color f)) (i : Nat) (c : Color f) : Prop where
  number : cs[i]? = some c
  /-- A read gives the color. -/
  read : b.pixel? f (.forward (UInt64.ofNat i)) = some c
  /-- A write replaces the color, and no byte outside its place. -/
  written : ∀ d : Color f, ∃ b', b.writePixel (.forward (UInt64.ofNat i)) d = .finished b' ∧
    b'.size = b.size ∧ decodeAll? f b' = some (cs.set i d) ∧
    ∀ j, j < i * f.bytesPerPixel ∨ (i + 1) * f.bytesPerPixel ≤ j → b'[j]? = b[j]?
  /-- The word of the color is the number that the bytes of its place spell. -/
  word : f.wordValue c.toWord =
    littleEndianValue (b.extract (i * f.bytesPerPixel) ((i + 1) * f.bytesPerPixel)).toList

theorem pixelOf_of_decodeAll? (size : b.size = k * f.bytesPerPixel) (small : b.size < UInt64.size)
    (read : decodeAll? f b = some cs) (hi : i < k) : ∃ c, PixelOf b cs i c := by
  obtain ⟨length, cells⟩ := (decodeAll?_eq_some_iff size).mp read
  have inside : (i + 1) * f.bytesPerPixel ≤ b.size := size ▸ Nat.mul_le_mul_right _ hi
  obtain ⟨fits, place⟩ := Location.forward_fits inside small
  have there := cell?_eq_color (f := f) inside
  refine ⟨b.color f i, ?_, ?_, ?_, ?_⟩
  · rw [← cells i hi, there]
  · rw [pixel?_eq_cell? fits, place, there]
  · intro d
    have offset := (Location.forward (UInt64.ofNat i)).offset_eq f
    rw [place] at offset
    refine ⟨store b (i * f.bytesPerPixel) d.bytes, ?_, size_store .., ?_, ?_⟩
    · rw [writePixel, if_pos fits, offset]
    · rw [store_eq_mapCells d (there ▸ rfl)]
      exact decodeAll?_mapCells_inPlace size read i d
    · intro j outside
      refine getElem?_store_of_not_mem ?_
      rwa [Color.length_bytes, ← Nat.succ_mul]
  · have bytes := Color.bytes_of_ofBytes? there
    rw [← Nat.succ_mul, List.take_of_length_le (by simp [Nat.succ_mul])] at bytes
    rw [Color.wordValue_toWord, bytes]

/-- A buffer of `k` pixels is a list of `k` colors. Every such buffer is decoded, every such list is
encoded into any bytes of the size, and one undoes the other. At each location there is the color
with its number (`PixelOf`). Colors and words are the same thing, too. -/
theorem colors_of_buffer (f : PixelFormat) (k : Nat) :
    (∀ b : Buffer, b.size = k * f.bytesPerPixel →
      ∃ cs : List (Color f), cs.length = k ∧ decodeAll? f b = some cs ∧
        ∀ into : Buffer, into.size = k * f.bytesPerPixel → encodeAll cs into = .ok b) ∧
    (∀ cs : List (Color f), cs.length = k →
      ∃ b : Buffer, b.size = k * f.bytesPerPixel ∧ decodeAll? f b = some cs ∧
        ∀ into : Buffer, into.size = k * f.bytesPerPixel → encodeAll cs into = .ok b) ∧
    (∀ (b : Buffer) (cs : List (Color f)), b.size = k * f.bytesPerPixel → b.size < UInt64.size →
      decodeAll? f b = some cs → ∀ i < k, ∃ c, PixelOf b cs i c) ∧
    (∀ c : Color f, Color.ofWord c.toWord = c) ∧
    ∀ w : f.Word, (Color.ofWord w : Color f).toWord = w := by
  refine ⟨?_, ?_, ?_, Color.ofWord_toWord, Color.toWord_ofWord⟩
  · intro b size
    obtain ⟨cs, rfl, read⟩ := exists_decodeAll? (f := f) size
    refine ⟨cs, rfl, read, ?_⟩
    intro into room
    rw [encodeAll_eq_ok room, decodeAll?_inj size (size_ofColors cs) read (decodeAll?_ofColors cs)]
  · rintro cs rfl
    exact ⟨ofColors cs, size_ofColors cs, decodeAll?_ofColors cs, fun into room =>
      encodeAll_eq_ok room⟩
  · intro b cs size small read i hi
    exact pixelOf_of_decodeAll? size small read hi

/-- Two pixels, magenta and green. -/
theorem colors_of_buffer_rgb565 :
    let b : Buffer := #[0x1f, 0xf8, 0xe0, 0x07]
    let cs : List (Color .rgb565) := [.rgb565 0xf81f, .rgb565 0x07e0]
    decodeAll? .rgb565 b = some cs ∧ encodeAll cs #[1, 2, 3, 4] = .ok b ∧
      PixelOf b cs 1 (.rgb565 0x07e0) := by
  intro b cs
  obtain ⟨decoded, -, pixels, -, -⟩ := colors_of_buffer .rgb565 2
  have read : decodeAll? .rgb565 b = some cs := by decide
  obtain ⟨cs', -, read', encoded⟩ := decoded b rfl
  obtain rfl : cs = cs' := Option.some.inj (read.symm.trans read')
  obtain ⟨c, pixel⟩ := pixels b cs rfl (by decide) read 1 (by decide)
  obtain rfl : .rgb565 0x07e0 = c := Option.some.inj pixel.number
  exact ⟨read, encoded _ rfl, pixel⟩

end Buffer

end Raster
