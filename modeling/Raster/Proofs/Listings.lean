import Mathlib.Data.List.Nodup
import Raster.Settings
import Raster.Proofs.Layouts
/-!
# Listings of a threading setting

A threading setting is written as an object with three members (`Threading.members`), and is read
from what is written. People write it in other ways: in another order, without the parts that are as
usual, and with members that mean something to somebody else. All of that lists the setting
(`Threading.ListedIn`), and each text that spells such an object is read as the setting, which is
then checked (`listings_read_back`).

Only what is given twice is never read. Which of the two is meant is not for the reader to say.
-/

namespace Raster

namespace Json

variable {α : Type} {names : List String} {members : List (String × Json)} {name : String}

/-- The members with the names of parts, of an object whose keys are texts. -/
def known (names : List String) (members : List (String × Json)) : List (String × Json) :=
  members.filter fun m => names.contains m.1

theorem mapM_named (members : List (String × Json)) :
    (members.map fun (key, v) => (some key, v)).mapM
      (fun (key, v) => key.map fun key => (key, v)) = some members := by
  induction members with
  | nil => rfl
  | cons m members ih =>
    rw [List.map_cons, List.mapM_cons, ih]
    rfl

theorem parts?_ofMembers (names : List String) (members : List (String × Json)) :
    (ofMembers members).parts? names =
      if ((known names members).map Prod.fst).Nodup then some (known names members) else none := by
  rw [ofMembers, parts?, mapM_named]
  rfl

/-- No part is given twice. -/
theorem nodup_known_iff :
    ((known names members).map Prod.fst).Nodup ↔
      ∀ name ∈ names, (members.map Prod.fst).count name ≤ 1 := by
  have keys :
      (known names members).map Prod.fst = (members.map Prod.fst).filter names.contains := by
    rw [List.filter_map]
    rfl
  rw [keys, List.nodup_iff_count_le_one]
  constructor
  · intro once name mem
    have := once name
    rwa [List.count_filter (by simpa using mem)] at this
  · intro once name
    by_cases mem : name ∈ names
    · rw [List.count_filter (by simpa using mem)]
      exact once name mem
    · rw [List.count_eq_zero_of_not_mem]
      · exact Nat.zero_le 1
      · intro h
        exact mem (by simpa using (List.mem_filter.mp h).2)

/-- The part of a name is the value of the first member with this name. -/
theorem lookup_known (mem : name ∈ names) :
    (known names members).lookup name = members.lookup name := by
  induction members with
  | nil => rfl
  | cons m members ih =>
      obtain ⟨key, v⟩ := m
      rw [known] at ih ⊢
      by_cases same : name = key
      · subst same
        rw [List.filter_cons_of_pos (by simpa using mem), List.lookup_cons_self,
          List.lookup_cons_self]
      · have other : (name == key) = false := by simpa using same
        rw [List.lookup_cons, other, List.filter_cons]
        split
        · rw [List.lookup_cons, other, ih]
        · exact ih

/-- A part is read from the value it is given, wherever it stands, or else is what stands in for
it. -/
theorem part?_eq_some {read : Json → Option α} {missing : Option α} {x : α} {v : Json}
    (back : read v = some x) (mem : name ∈ names) (given : ∀ w, (name, w) ∈ members → w = v)
    (omitted : name ∉ members.map Prod.fst → missing = some x) :
    part? (known names members) name read missing = some x := by
  rw [part?, lookup_known mem]
  cases found : members.lookup name with
  | some w =>
      obtain ⟨_, _, rfl, -⟩ := List.lookup_eq_some_iff.mp found
      have same := given w (by simp)
      exact same ▸ back
  | none =>
      refine omitted ?_
      intro mem
      obtain ⟨⟨key, w⟩, there, rfl⟩ := List.mem_map.mp mem
      exact absurd (List.lookup_eq_none_iff.mp found _ there) (by simp)

theorem toNat?_toDigits (n : Nat) : Numeral.toNat? (Nat.toDigits 10 n) = some n := by
  have digits : (Nat.toDigits 10 n).all Char.isDigit := by
    rw [List.all_eq_true]
    intro d mem
    exact Nat.isDigit_of_mem_toDigits (by decide) (by decide) mem
  rw [Numeral.toNat?, if_pos digits, Nat.ofDigitChars_toDigits (by decide) (by decide)]

theorem word64?_ofNat (n : UInt64) : word64? (ofNat n.toNat) = some n := by
  rw [word64?, ofNat, natBelow?, toNat?_toDigits, Option.filter_some,
    if_pos (by simpa using n.toNat_lt), Option.map_some, UInt64.ofNat_toNat]

end Json

namespace Threading

/-- The names of the parts. -/
def partNames : List String := ["parallel", "threads", "min_rows_per_task"]

/-- The size of the pool, or null. -/
def threadsJson (t : Threading) : Json := (t.threads.map fun n => Json.ofNat n.toNat).getD .null

theorem nullable?_threadsJson (t : Threading) :
    Json.nullable? Json.word64? t.threadsJson = some t.threads := by
  rw [threadsJson]
  cases t.threads with
  | none => rfl
  | some n =>
      have read := Json.word64?_ofNat n
      rw [Json.ofNat] at read
      rw [Option.map_some, Option.getD_some, Json.ofNat, Json.nullable?, read, Option.map_some]
      exact nofun

/-- The members that a setting is written with. -/
def members (t : Threading) : List (String × Json) :=
  [("parallel", .bool t.parallel), ("threads", t.threadsJson),
    ("min_rows_per_task", .ofNat t.minRowsPerTask.toNat)]

theorem toJson_eq (t : Threading) : t.toJson = .ofMembers t.members := rfl

/-- The members of an object list a setting: its parts in any order, among others. -/
structure ListedIn (t : Threading) (members : List (String × Json)) : Prop where
  /-- No part is given twice. -/
  once : ∀ name ∈ partNames, (members.map Prod.fst).count name ≤ 1
  /-- A part that is given has its value. -/
  given : ∀ name v, (name, v) ∈ t.members → ∀ w, (name, w) ∈ members → w = v
  /-- A part that is not given has the value that it has by default. -/
  omitted : ∀ name v, (name, v) ∈ t.members → name ∉ members.map Prod.fst →
    (name, v) ∈ (default : Threading).members

variable {t : Threading} {members : List (String × Json)}

/-- A part of a setting is read from every listing of it, if it is read from its own value. -/
theorem part?_of_listedIn {α : Type} (listed : t.ListedIn members) {name : String}
    (value : Threading → Json) {part : Threading → α} {read : Json → Option α}
    (known : name ∈ partNames) (member : ∀ (t : Threading) v, (name, v) ∈ t.members ↔ v = value t)
    (back : ∀ t, read (value t) = some (part t)) :
    Json.part? (Json.known partNames members) name read (some (part default)) = some (part t) := by
  have own := (member t (value t)).mpr rfl
  refine Json.part?_eq_some (back t) known (listed.given name _ own) ?_
  intro absent
  have usual := (member default (value t)).mp (listed.omitted name _ own absent)
  rw [← back t, usual, back default]

/-- The setting is read from every listing of it. -/
theorem ofJson?_of_listedIn (listed : t.ListedIn members) :
    ofJson? (.ofMembers members) = some t := by
  have parts : (Json.ofMembers members).parts? partNames = some (Json.known partNames members) := by
    rw [Json.parts?_ofMembers, if_pos (Json.nodup_known_iff.mpr listed.once)]
  have parallel : Json.part? (Json.known partNames members) "parallel" Json.bool?
      (some (default : Threading).parallel) = some t.parallel :=
    part?_of_listedIn listed (fun t => .bool t.parallel) (by decide)
      (fun t v => by simp [Threading.members]) fun t => rfl
  have threads : Json.part? (Json.known partNames members) "threads" (Json.nullable? Json.word64?)
      (some (default : Threading).threads) = some t.threads :=
    part?_of_listedIn listed threadsJson (by decide)
      (fun t v => by simp [Threading.members]) nullable?_threadsJson
  have minRowsPerTask : Json.part? (Json.known partNames members) "min_rows_per_task" Json.word64?
      (some (default : Threading).minRowsPerTask) = some t.minRowsPerTask :=
    part?_of_listedIn listed (fun t => .ofNat t.minRowsPerTask.toNat) (by decide)
      (fun t v => by simp [Threading.members]) fun t => Json.word64?_ofNat t.minRowsPerTask
  rw [partNames] at parts parallel threads minRowsPerTask
  simp only [ofJson?, parts, parallel, threads, minRowsPerTask, Option.bind_eq_bind,
    Option.bind_some, Option.pure_def]

/-- Nothing is read where a part is given twice. -/
theorem ofJson?_eq_none {name : String} (known : name ∈ partNames)
    (twice : 2 ≤ (members.map Prod.fst).count name) : ofJson? (.ofMembers members) = none := by
  have parts : (Json.ofMembers members).parts? partNames = none := by
    rw [Json.parts?_ofMembers, if_neg]
    intro once
    exact absurd (Json.nodup_known_iff.mp once name known) (by omega)
  rw [partNames] at parts
  rw [ofJson?, parts]
  rfl

/-- A setting is listed in the members that it is written with. -/
theorem listedIn_members (t : Threading) : t.ListedIn t.members := by
  have keys : t.members.map Prod.fst = partNames := rfl
  have different : partNames.Nodup := by decide
  refine ⟨?_, ?_, ?_⟩
  · intro name _
    rw [keys]
    exact List.nodup_iff_count_le_one.mp different name
  · intro name v own w given
    have nodup : (t.members.map Prod.fst).Nodup := keys ▸ different
    have same := List.inj_on_of_nodup_map nodup given own rfl
    exact congrArg Prod.snd same
  · intro name v own absent
    exact absurd (List.mem_map_of_mem own) absent

theorem writable_members (t : Threading) : (Json.ofMembers t.members).Writable := by
  have number (n : UInt64) : (Json.ofNat n.toNat).Writable :=
    .number (Json.Numeral.isNumeral_toDigits n.toNat)
  have threads : t.threadsJson.Writable := by
    rw [threadsJson]
    cases t.threads with
    | none => exact .null
    | some n => exact number n
  refine .object ?_
  simpa [Threading.members] using ⟨.bool t.parallel, threads, number t.minRowsPerTask⟩

/-- A setting that is listed in what a text is read as is checked, whatever the text. -/
theorem ofText_of_listedIn {text : String} (read : Json.ofText? text = some (.ofMembers members))
    (listed : t.ListedIn members) : ofText text = t.check.map fun _ => t := by
  rw [ofText, read, Option.bind_some, ofJson?_of_listedIn listed]

/-- A threading setting is read from the text that it is written to, and is then checked. More than
that: let a text spell an object. If its members list a threading setting, in any order, without
parts that are as usual and among others, then the text is read as this setting exactly if the
setting can be used, and is refused for what it asks for exactly if it asks for no threads at all.
If a part is given twice, the text is refused for what it is.

Keys are texts here. A key can be written that denotes none, by half of a surrogate pair alone; an
object with such a key is refused by the reader whatever else it says (`Json.parts?`), and no such
object is among these listings. -/
theorem listings_read_back :
    (∀ t : Threading, ofText t.toJson.indented = t.check.map fun _ => t) ∧
    ∀ (members : List (String × Json)) (text : String), (Json.ofMembers members).Spelled text →
      (∀ t : Threading, t.ListedIn members →
        (ofText text = .ok t ↔ t.check = .ok ()) ∧
        ((∃ e, ofText text = .error e ∧ e.category = .validation) ↔ t.threads = some 0)) ∧
      (∀ name ∈ partNames, 2 ≤ (members.map Prod.fst).count name →
        ∃ e, ofText text = .error e ∧ e.category = .serialization) := by
  refine ⟨?_, ?_⟩
  · intro t
    rw [toJson_eq]
    exact ofText_of_listedIn (Json.ofText?_indented t.writable_members) t.listedIn_members
  · intro members text spelled
    have read := Json.ofText?_of_spelled spelled
    refine ⟨?_, ?_⟩
    · intro t listed
      rw [ofText_of_listedIn read listed]
      by_cases zero : t.threads = some 0
      · have refused : t.check = .error .noThreads := if_pos zero
        rw [refused]
        exact ⟨iff_of_false nofun nofun, iff_of_true ⟨_, rfl, rfl⟩ zero⟩
      · have usable := t.check_eq_ok_iff.mpr zero
        rw [usable]
        exact ⟨iff_of_true rfl rfl, iff_of_false nofun zero⟩
    · intro name known twice
      refine ⟨.malformedText, ?_, rfl⟩
      rw [ofText, read, Option.bind_some, ofJson?_eq_none known twice]

/-- A listing in another order, without one of the parts, with the name of another written by an
escape and with a member that means nothing here; and a text that gives a part twice. -/
theorem listings_read_back_reordered :
    let t : Threading := ⟨false, some 3, 18446744073709551615⟩
    let members : List (String × Json) := [("min_rows_per_task", .ofNat 18446744073709551615),
      ("threads", .ofNat 3), ("x", .number ['-', '0', '.', '5', 'e', '1'])]
    t.ListedIn members ∧ (Json.ofMembers members).Spelled
      "\x7b\"min_rows_per_task\":18446744073709551615,\n \"\\u0074hreads\" : 3,\"x\":-0.5e1\x7d " ∧
    ofText
      "\x7b\"min_rows_per_task\":18446744073709551615,\n \"\\u0074hreads\" : 3,\"x\":-0.5e1\x7d " =
        .ok t ∧
    ∃ e, ofText "\x7b\"threads\":1,\"threads\":null\x7d" = .error e ∧
      e.category = .serialization := by
  intro t members
  have listed : t.ListedIn members := by
    refine ⟨by decide, ?_, ?_⟩
    · intro name v own w given
      simp only [Threading.members, t, List.mem_cons, Prod.mk.injEq, List.not_mem_nil,
        or_false] at own
      simp only [members, List.mem_cons, Prod.mk.injEq, List.not_mem_nil, or_false] at given
      rcases own with ⟨rfl, rfl⟩ | ⟨rfl, rfl⟩ | ⟨rfl, rfl⟩
      · simp at given
      · exact (by simpa using given : w = .ofNat 3)
      · exact (by simpa using given : w = .ofNat 18446744073709551615)
    · intro name v own absent
      simp only [Threading.members, t, List.mem_cons, Prod.mk.injEq, List.not_mem_nil,
        or_false] at own
      rcases own with ⟨rfl, rfl⟩ | ⟨rfl, rfl⟩ | ⟨rfl, rfl⟩
      · exact List.mem_cons_self
      · exact absurd absent (by decide)
      · exact absurd absent (by decide)
  have none : Json.Token.AreBlanks [] := by decide
  have blank : Json.Token.AreBlanks [' '] := by decide
  have lineEnd : Json.Token.AreBlanks ['\n', ' '] := by decide
  have number (n : Nat) := Json.Token.Spelled.number (Json.Numeral.isNumeral_toDigits n)
  have key (s : String) (plain : ∀ c ∈ s.toList, ' ' ≤ c ∧ c ≠ '"' ∧ c ≠ '\\') :=
    Json.Token.spelled_text (Json.Text.denotes_self plain)
  have threads : Json.Text.Denotes "\\u0074hreads".toList
      ("threads".toList.flatMap Json.Text.codeUnits) :=
    .unit (by decide) (.inl rfl) (.inl rfl) (.inl rfl) (.inl rfl)
      (Json.Text.denotes_self (by simp : ∀ c ∈ "hreads".toList, ' ' ≤ c ∧ c ≠ '"' ∧ c ≠ '\\'))
  have x : Json.Numeral.IsNumeral ['-', '0', '.', '5', 'e', '1'] :=
    ⟨['-'], ['0'], ['.', '5'], ['e', '1'], rfl, .inr rfl, .inl rfl,
      .inr ⟨['5'], rfl, by simp, by simp⟩,
      .inr ⟨'e', [], ['1'], rfl, .inl rfl, .inl rfl, by simp, by simp⟩⟩
  have row := Json.Token.RowSpelled.cons none .beginObject <|
    .cons none (key "min_rows_per_task" (by simp)) <| .cons none .colon <|
    .cons none (number 18446744073709551615) <| .cons none .comma <|
    .cons lineEnd (Json.Token.spelled_text threads) <| .cons blank .colon <|
    .cons blank (number 3) <| .cons none .comma <| .cons none (key "x" (by simp)) <|
    .cons none .colon <| .cons none (.number x) <| .cons none .endObject <| .nil blank
  have spelled : (Json.ofMembers members).Spelled
      "\x7b\"min_rows_per_task\":18446744073709551615,\n \"\\u0074hreads\" : 3,\"x\":-0.5e1\x7d " :=
    row
  have rowAgain := Json.Token.RowSpelled.cons none .beginObject <|
    .cons none (key "threads" (by simp)) <| .cons none .colon <| .cons none (number 1) <|
    .cons none .comma <| .cons none (key "threads" (by simp)) <| .cons none .colon <|
    .cons none .null <| .cons none .endObject <| .nil none
  have spelledAgain : (Json.ofMembers [("threads", .ofNat 1), ("threads", .null)]).Spelled
      "\x7b\"threads\":1,\"threads\":null\x7d" := rowAgain
  exact ⟨listed, spelled, ((listings_read_back.2 _ _ spelled).1 t listed).1.mpr rfl,
    (listings_read_back.2 _ _ spelledAgain).2 "threads" (by decide) (by decide)⟩

end Threading

end Raster
