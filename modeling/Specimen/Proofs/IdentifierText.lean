import Mathlib.Data.List.Basic
import Mathlib.Tactic.IntervalCases
import Specimen.Format.Identifier

/-!
# Identifiers as text

Bytes are read back from their hexadecimal digits and groups from between their hyphens. The marks
of the fourth version and of the common variant change six bits of what is drawn.
-/

namespace Specimen

namespace Source

theorem length_littleEndian (count word : Nat) : (littleEndian count word).length = count := by
  induction count generalizing word with
  | zero => rfl
  | succ count ih => rw [littleEndian, List.length_cons, ih]

theorem lt_of_mem_littleEndian {count word byte : Nat} (h : byte ∈ littleEndian count word) :
    byte < 256 := by
  induction count generalizing word with
  | zero => cases h
  | succ count ih =>
      rw [littleEndian, List.mem_cons] at h
      rcases h with rfl | hrest
      · exact Nat.mod_lt _ (by decide)
      · exact ih hrest

theorem length_bytes16 (s : Source) : s.bytes16.1.length = 16 := by
  cases s <;> simp [bytes16, length_littleEndian]

theorem lt_of_mem_bytes16 {s : Source} {byte : Nat} (h : byte ∈ s.bytes16.1) : byte < 256 := by
  cases s with
  | mixed tape state =>
      rcases List.mem_append.mp h with hlow | hhigh
      · exact lt_of_mem_littleEndian hlow
      · exact lt_of_mem_littleEndian hhigh
  | cipher key block pending =>
      obtain ⟨word, -, hmem⟩ := List.mem_flatMap.mp h
      exact lt_of_mem_littleEndian hmem

end Source

namespace Identifier

variable {bytes : List Nat} {rest : List Char}

/-! ### Marks -/

/-- Bytes that carry the marks of the fourth version and of the common variant, and are what was
drawn in all other bits. -/
structure Stamped (drawn bytes : List Nat) : Prop where
  length : bytes.length = 16
  lt : ∀ byte ∈ bytes, byte < 256
  version : bytes[6]?.map (· / 16) = some 4
  versionRest : bytes[6]?.map (· % 16) = drawn[6]?.map (· % 16)
  variant : bytes[8]?.map (· / 64) = some 2
  variantRest : bytes[8]?.map (· % 64) = drawn[8]?.map (· % 64)
  others : ∀ place, place ≠ 6 → place ≠ 8 → bytes[place]? = drawn[place]?

theorem lt_of_mem_mark {byte : Nat} (h : ∀ byte ∈ bytes, byte < 256) (hmem : byte ∈ mark bytes) :
    byte < 256 := by
  obtain ⟨place, hplace, rfl⟩ := List.mem_mapIdx.mp hmem
  have hlt := h _ (List.getElem_mem hplace)
  split
  · omega
  · split <;> omega

theorem getElem?_mark (bytes : List Nat) (place : Nat) :
    (mark bytes)[place]? = bytes[place]?.map fun byte =>
      if place = 6 then byte % 16 + 0x40 else if place = 8 then byte % 64 + 0x80 else byte :=
  List.getElem?_mapIdx

theorem stamped_mark (hlength : bytes.length = 16) (hlt : ∀ byte ∈ bytes, byte < 256) :
    Stamped bytes (mark bytes) := by
  have hversion : bytes[6]? = some bytes[6] := List.getElem?_eq_getElem (by omega)
  have hvariant : bytes[8]? = some bytes[8] := List.getElem?_eq_getElem (by omega)
  have hmarkVersion : (mark bytes)[6]? = some (bytes[6] % 16 + 0x40) := by
    rw [getElem?_mark, hversion]
    rfl
  have hmarkVariant : (mark bytes)[8]? = some (bytes[8] % 64 + 0x80) := by
    rw [getElem?_mark, hvariant]
    rfl
  constructor
  case length => rw [mark, List.length_mapIdx, hlength]
  case lt => exact fun _ => lt_of_mem_mark hlt
  case version =>
    rw [hmarkVersion, Option.map_some, Option.some.injEq]
    omega
  case versionRest =>
    rw [hmarkVersion, hversion, Option.map_some, Option.map_some, Option.some.injEq]
    omega
  case variant =>
    rw [hmarkVariant, Option.map_some, Option.some.injEq]
    omega
  case variantRest =>
    rw [hmarkVariant, hvariant, Option.map_some, Option.map_some, Option.some.injEq]
    omega
  case others =>
    intro place hne hne'
    simp [getElem?_mark, hne, hne']

/-! ### Bytes in hexadecimal -/

theorem digit?_hexDigit {n : Nat} (h : n < 16) : Text.digit? 16 (hexDigit n) = some n := by
  interval_cases n <;> rfl

theorem digits?_byteText {byte : Nat} (h : byte < 256) :
    Text.digits? 16 (byteText byte) = some byte := by
  have hhigh : Text.digit? 16 (hexDigit (byte / 16 % 16)) = some (byte / 16 % 16) :=
    digit?_hexDigit (Nat.mod_lt _ (by decide))
  have hlow : Text.digit? 16 (hexDigit (byte % 16)) = some (byte % 16) :=
    digit?_hexDigit (Nat.mod_lt _ (by decide))
  have hsum : byte / 16 % 16 * 16 + byte % 16 = byte := by omega
  simp [Text.digits?, byteText, hhigh, hlow, hsum]

theorem bytes?_flatMap (h : ∀ byte ∈ bytes, byte < 256) (rest : List Char) :
    bytes? bytes.length (bytes.flatMap byteText ++ rest) = some (bytes, rest) := by
  induction bytes with
  | nil => rfl
  | cons byte bytes ih =>
      rw [List.forall_mem_cons] at h
      have hbyte := digits?_byteText h.1
      rw [byteText] at hbyte
      simp [bytes?, byteText, hbyte, ih h.2]

/-- A hyphen comes too early for more bytes than the ones before it. -/
theorem bytes?_eq_none {count : Nat} (h : bytes.length < count) (rest : List Char) :
    bytes? count (bytes.flatMap byteText ++ '-' :: rest) = none := by
  induction bytes generalizing count with
  | nil =>
      obtain ⟨count, rfl⟩ := Nat.exists_eq_add_one.mpr h
      cases rest with
      | nil => rfl
      | cons low rest => rfl
  | cons byte bytes ih =>
      obtain ⟨count, rfl⟩ := Nat.exists_eq_add_one.mpr (Nat.zero_lt_of_lt h)
      have hrest := ih (Nat.lt_of_succ_lt_succ h)
      simp [bytes?, byteText, hrest]

/-- Groups of bytes with hyphens between them are read back. -/
theorem hyphenated?_groupsOf {counts : List Nat} (hne : counts ≠ [])
    (hsum : bytes.length = counts.sum) (h : ∀ byte ∈ bytes, byte < 256) :
    hyphenated? counts (['-'].intercalate
      ((groupsOf counts bytes).map fun group => group.flatMap byteText)) = some bytes := by
  induction counts generalizing bytes with
  | nil => exact absurd rfl hne
  | cons count counts ih =>
      have htake : (bytes.take count).length = count := by
        rw [List.sum_cons] at hsum
        rw [List.length_take]
        omega
      have hfirst (rest : List Char) : bytes? count ((bytes.take count).flatMap byteText ++ rest) =
          some (bytes.take count, rest) := by
        have hlt : ∀ byte ∈ bytes.take count, byte < 256 := fun byte hmem =>
          h byte (List.mem_of_mem_take hmem)
        have hread := bytes?_flatMap hlt rest
        rwa [htake] at hread
      cases counts with
      | nil =>
          have hall : bytes.take count = bytes := by
            rw [List.sum_singleton] at hsum
            exact List.take_of_length_le (Nat.le_of_eq hsum)
          have hread := hfirst []
          rw [hall, List.append_nil] at hread
          simp [groupsOf, hyphenated?, hall, hread]
      | cons next counts =>
          have hlength : (bytes.drop count).length = (next :: counts).sum := by
            rw [List.length_drop, hsum, List.sum_cons, Nat.add_sub_cancel_left]
          have hlt : ∀ byte ∈ bytes.drop count, byte < 256 := fun byte hmem =>
            h byte (List.mem_of_mem_drop hmem)
          have hrest := ih (List.cons_ne_nil next counts) hlength hlt
          simp only [groupsOf, List.map_cons] at hrest ⊢
          rw [List.intercalate_cons_cons, List.append_assoc, hyphenated?]
          · rw [hfirst]
            simp [-List.drop_drop, hrest]
          · simp

theorem exists_text_eq (bytes : List Nat) :
    ∃ tail, text bytes = (bytes.take 4).flatMap byteText ++ '-' :: tail :=
  ⟨_, rfl⟩

/-- No identifier starts like the other forms, with a brace or a name. -/
theorem hexDigit_ne {n : Nat} (h : n < 16) : hexDigit n ≠ '{' ∧ hexDigit n ≠ 'u' := by
  interval_cases n <;> decide

/-- An identifier of sixteen bytes is read back from its text. -/
theorem read?_text (hlength : bytes.length = 16) (h : ∀ byte ∈ bytes, byte < 256) :
    read? (text bytes) = some bytes := by
  have hread : hyphenated? groupSizes (text bytes) = some bytes :=
    hyphenated?_groupsOf (by decide) hlength h
  have hplain : bytes? 16 (text bytes) = none := by
    obtain ⟨tail, htext⟩ := exists_text_eq bytes
    rw [htext]
    exact bytes?_eq_none (by rw [List.length_take]; omega) tail
  obtain ⟨n, tail, hn, htext⟩ : ∃ n tail, n < 16 ∧ text bytes = hexDigit n :: tail := by
    obtain ⟨byte, rest, rfl⟩ : ∃ byte rest, bytes = byte :: rest :=
      List.exists_cons_of_length_pos (by omega)
    exact ⟨byte / 16 % 16, _, Nat.mod_lt _ (by decide), rfl⟩
  obtain ⟨hbrace, hname⟩ := hexDigit_ne hn
  have hopen : ∀ rest, text bytes = '{' :: rest → False := by
    rintro rest hsame
    rw [htext] at hsame
    exact hbrace (List.cons.inj hsame).1
  have hurn : urn.isPrefixOf (text bytes) = false := by
    have hfirst : urn = 'u' :: "rn:uuid:".toList := rfl
    rw [htext, hfirst, List.isPrefixOf, beq_false_of_ne (Ne.symm hname), Bool.false_and]
  rw [read?, hplain]
  split
  · contradiction
  · rw [hurn]
    exact hread
  · exact hopen

end Identifier

end Specimen
