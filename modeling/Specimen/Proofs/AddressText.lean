import Mathlib.Data.List.Basic
import Mathlib.Tactic.IntervalCases
import Specimen.Format.Address

/-!
# Addresses as text

Numbers are read back from their digits up to the first character that is none, and so the bytes and
the groups of an address. The zero groups that two colons stand for are the ones left out.
-/

namespace Specimen

namespace Text

variable {base n : Nat}

theorem digit?_digitChar (h : n < base) (hbase : base ≤ 16) : digit? base n.digitChar = some n := by
  have hn : n < 16 := by omega
  have hvalue : ∀ n < 16, (if '0' ≤ n.digitChar ∧ n.digitChar ≤ '9' then n.digitChar.toNat - 48
      else if 'a' ≤ n.digitChar ∧ n.digitChar ≤ 'f' then n.digitChar.toNat - 87
      else if 'A' ≤ n.digitChar ∧ n.digitChar ≤ 'F' then n.digitChar.toNat - 55
      else base) = n := by
    intro n hn
    interval_cases n <;> rfl
  simp only [digit?, hvalue n hn, if_pos h]

theorem digits?_append_singleton {cs : List Char} {c : Char} {value digit : Nat}
    (hcs : digits? base cs = some value) (hc : digit? base c = some digit) :
    digits? base (cs ++ [c]) = some (value * base + digit) := by
  rw [digits?, List.foldlM_append]
  rw [digits?] at hcs
  simp [hcs, hc]

theorem toDigits_mul_add {high low : Nat} (hbase : 1 < base) (hhigh : 0 < high)
    (hlow : low < base) :
    Nat.toDigits base (base * high + low) = Nat.toDigits base high ++ [low.digitChar] := by
  rw [← Nat.toDigits_append_toDigits hbase hhigh hlow, Nat.toDigits_of_lt_base hlow]

theorem digits?_toDigits (hbase : 1 < base) (h16 : base ≤ 16) (n : Nat) :
    digits? base (Nat.toDigits base n) = some n := by
  induction n using Nat.base_induction base hbase with
  | single n hn =>
      rw [Nat.toDigits_of_lt_base hn]
      simp [digits?, digit?_digitChar hn h16]
  | digit high low hlow hhigh ih =>
      rw [toDigits_mul_add hbase hhigh hlow,
        digits?_append_singleton ih (digit?_digitChar hlow h16), Nat.mul_comm]

theorem isSome_digit?_of_mem_toDigits (hbase : 1 < base) (h16 : base ≤ 16) {c : Char}
    (h : c ∈ Nat.toDigits base n) : (digit? base c).isSome = true := by
  induction n using Nat.base_induction base hbase with
  | single n hn =>
      rw [Nat.toDigits_of_lt_base hn, List.mem_singleton] at h
      rw [h, digit?_digitChar hn h16]
      rfl
  | digit high low hlow hhigh ih =>
      rw [toDigits_mul_add hbase hhigh hlow, List.mem_append, List.mem_singleton] at h
      rcases h with hmem | rfl
      · exact ih hmem
      · rw [digit?_digitChar hlow h16]
        rfl

end Text

namespace Address

variable {base most n address : Nat} {cs rest : List Char}

/-- What comes after a number that ends there: nothing, or a character that is no digit. -/
def EndsNumber (base : Nat) (rest : List Char) : Prop :=
  ∀ c tail, rest = c :: tail → Text.digit? base c = none

theorem number?_toDigits (hbase : 1 < base) (h16 : base ≤ 16) (hmost : 0 < most)
    (h : n < base ^ most) (hrest : EndsNumber base rest) :
    number? base most (Nat.toDigits base n ++ rest) = some (n, rest) := by
  have hdigits : (Nat.toDigits base n ++ rest).takeWhile (fun c => (Text.digit? base c).isSome) =
      Nat.toDigits base n := by
    rw [List.takeWhile_append_of_pos fun c hc => Text.isSome_digit?_of_mem_toDigits hbase h16 hc]
    cases rest with
    | nil => rw [List.takeWhile_nil, List.append_nil]
    | cons c tail => simp [hrest c tail rfl]
  have hlength : (Nat.toDigits base n).length ≤ most :=
    (Nat.length_toDigits_le_iff hbase hmost).mpr h
  have hfits : ¬ (Nat.toDigits base n = [] ∨ most < (Nat.toDigits base n).length) := by
    simp [Nat.toDigits_ne_nil, hlength]
  simp only [number?, hdigits, if_neg hfits, Text.digits?_toDigits hbase h16, Option.map_some,
    List.drop_left]

theorem number?_eq_none (h : EndsNumber base cs) : number? base most cs = none := by
  have hdigits : cs.takeWhile (fun c => (Text.digit? base c).isSome) = [] := by
    cases cs with
    | nil => rfl
    | cons c tail => simp [h c tail rfl]
  simp [number?, hdigits]

/-! ### Four bytes -/

theorem endsNumber_nil (base : Nat) : EndsNumber base [] := by
  rintro c tail h
  cases h

theorem endsNumber_cons {c : Char} (h : Text.digit? base c = none) (rest : List Char) :
    EndsNumber base (c :: rest) := by
  rintro d tail hcons
  rw [← (List.cons.inj hcons).1, h]

/-- Only zero is written with a zero first. -/
theorem eq_zero_of_head?_decimal (h : (decimal n).head? = some '0') : n = 0 := by
  unfold decimal at h
  induction n using Nat.base_induction 10 (by decide) with
  | single n hn =>
      rw [Nat.toDigits_of_lt_base hn, List.head?_cons, Option.some.injEq] at h
      exact Nat.digitChar_eq_zero.mp h
  | digit high low hlow hhigh ih =>
      rw [Text.toDigits_mul_add (by decide) hhigh hlow,
        List.head?_append_of_ne_nil _ Nat.toDigits_ne_nil] at h
      exact absurd (ih h) (Nat.ne_of_gt hhigh)

theorem octet?_decimal (h : n < 256) (hrest : EndsNumber 10 rest) :
    octet? (decimal n ++ rest) = some (n, rest) := by
  have hnumber : number? 10 3 (decimal n ++ rest) = some (n, rest) :=
    number?_toDigits (by decide) (by decide) (by decide) (by omega) hrest
  have hhead : (decimal n ++ rest).head? = (decimal n).head? :=
    List.head?_append_of_ne_nil _ Nat.toDigits_ne_nil
  have hplain : ¬ (255 < n ∨
      ((decimal n ++ rest).head? = some '0' ∧ rest.length + 1 < (decimal n ++ rest).length)) := by
    rintro (hlarge | ⟨hzero, hlength⟩)
    · omega
    · rw [hhead] at hzero
      rw [eq_zero_of_head?_decimal hzero, List.length_append] at hlength
      exact absurd hlength (by simp [decimal, Nat.add_comm])
  refine Option.bind_eq_some_iff.mpr ⟨_, hnumber, ?_⟩
  exact if_neg hplain

theorem text4_eq (address : Nat) : text4 address =
    decimal (address / 0x1000000 % 0x100) ++ '.' :: (decimal (address / 0x10000 % 0x100) ++
      '.' :: (decimal (address / 0x100 % 0x100) ++ '.' :: decimal (address % 0x100))) := by
  simp [text4, octets, joinWith, List.intercalate]

theorem address4?_text4 (h : address < 0x100000000) (hrest : EndsNumber 10 rest) :
    address4? (text4 address ++ rest) = some (address, rest) := by
  have hpoint (rest : List Char) : EndsNumber 10 ('.' :: rest) := endsNumber_cons rfl rest
  have hbyte (n : Nat) : n % 0x100 < 256 := Nat.mod_lt n (by decide)
  have hsum : address / 0x1000000 % 0x100 * 0x1000000 + address / 0x10000 % 0x100 * 0x10000 +
      address / 0x100 % 0x100 * 0x100 + address % 0x100 = address := by omega
  rw [text4_eq]
  simp only [List.append_assoc, List.cons_append]
  refine Option.bind_eq_some_iff.mpr ⟨_, octet?_decimal (hbyte _) (hpoint _), ?_⟩
  refine Option.bind_eq_some_iff.mpr ⟨_, Text.mark?_cons '.' _, ?_⟩
  refine Option.bind_eq_some_iff.mpr ⟨_, octet?_decimal (hbyte _) (hpoint _), ?_⟩
  refine Option.bind_eq_some_iff.mpr ⟨_, Text.mark?_cons '.' _, ?_⟩
  refine Option.bind_eq_some_iff.mpr ⟨_, octet?_decimal (hbyte _) (hpoint _), ?_⟩
  refine Option.bind_eq_some_iff.mpr ⟨_, Text.mark?_cons '.' _, ?_⟩
  refine Option.bind_eq_some_iff.mpr ⟨_, octet?_decimal (hbyte _) hrest, ?_⟩
  exact congrArg (fun sum => some (sum, rest)) hsum

/-- An address of 32 bits is read back from its text. -/
theorem read4?_text4 (h : address < 0x100000000) : read4? (text4 address) = some address := by
  have haddress : address4? (text4 address) = some (address, []) := by
    rw [← List.append_nil (text4 address)]
    exact address4?_text4 h (endsNumber_nil 10)
  rw [read4?, haddress]

/-! ### Eight groups -/

theorem foldl_groups (address count : Nat) :
    ((List.range count).map fun i => address / Nat.pow 2 (16 * (count - 1 - i)) % 0x10000).foldl
      (fun address group => address * 0x10000 + group) (address / Nat.pow 2 (16 * count)) =
        address := by
  induction count with
  | zero => exact Nat.div_one address
  | succ count ih =>
      have hfirst : address / Nat.pow 2 (16 * (count + 1)) * 0x10000 +
          address / Nat.pow 2 (16 * count) % 0x10000 = address / Nat.pow 2 (16 * count) := by
        have hpow : Nat.pow 2 (16 * (count + 1)) = Nat.pow 2 (16 * count) * 0x10000 :=
          Nat.pow_add 2 (16 * count) 16
        rw [hpow, ← Nat.div_div_eq_div_mul, Nat.div_add_mod']
      rw [List.range_succ_eq_map, List.map_cons, List.map_map, List.foldl_cons]
      simp only [Nat.add_sub_cancel, Nat.sub_zero, hfirst]
      refine Eq.trans ?_ ih
      congr 1
      refine List.map_congr_left fun i _ => ?_
      rw [Function.comp_apply, Nat.sub_succ', Nat.sub_right_comm]

theorem ofGroups_groups (h : address < Nat.pow 2 128) : ofGroups (groups address) = address := by
  have hzero : address / Nat.pow 2 (16 * 8) = 0 := Nat.div_eq_of_lt h
  have hfold := foldl_groups address 8
  rw [hzero] at hfold
  exact hfold

theorem length_groups (address : Nat) : (groups address).length = 8 := by
  simp [groups]

theorem lt_of_mem_groups {group : Nat} (h : group ∈ groups address) : group < 0x10000 := by
  obtain ⟨i, -, rfl⟩ := List.mem_map.mp h
  exact Nat.mod_lt _ (by decide)

/-! ### The run that is left out -/

namespace Run

/-- A run of zeros among groups. -/
def Zeros (run : Run) (groups : List Nat) : Prop :=
  ∃ before after, before.length = run.start ∧
    groups = before ++ (List.replicate run.length 0 ++ after)

/-- A run of zeros, if it is not empty, with which groups end. -/
def Trailing (run : Run) (groups : List Nat) : Prop :=
  run.length = 0 ∨ ∃ before, before.length = run.start ∧
    groups = before ++ List.replicate run.length 0

/-- The run with one more zero, which stands at the given place. -/
def grown (run : Run) (place : Nat) : Run :=
  if run.length = 0 then ⟨place, 1⟩ else ⟨run.start, run.length + 1⟩

variable {run : Run} {groups : List Nat}

theorem zeros_empty (groups : List Nat) : Zeros ⟨0, 0⟩ groups :=
  ⟨[], groups, rfl, rfl⟩

theorem Trailing.grown (h : run.Trailing groups) :
    (run.grown groups.length).Trailing (groups ++ [0]) := by
  unfold Run.grown
  by_cases hempty : run.length = 0
  · rw [if_pos hempty]
    exact .inr ⟨groups, rfl, rfl⟩
  · rw [if_neg hempty]
    obtain ⟨before, hstart, rfl⟩ := h.resolve_left hempty
    refine .inr ⟨before, hstart, ?_⟩
    rw [List.replicate_succ', List.append_assoc]

theorem length_grown_ne_zero (run : Run) (place : Nat) : (run.grown place).length ≠ 0 := by
  unfold grown
  split <;> simp

theorem Trailing.zeros (h : run.Trailing groups) (hne : run.length ≠ 0) (rest : List Nat) :
    run.Zeros (groups ++ rest) := by
  obtain ⟨before, hstart, rfl⟩ := h.resolve_left hne
  exact ⟨before, rest, hstart, by rw [List.append_assoc]⟩

/-- The longest run of zeros after some groups is a run of zeros among all of them. -/
theorem zeros_longestRun {before rest : List Nat} {current longest : Run}
    (hcurrent : current.Trailing before) (hlongest : longest.Zeros (before ++ rest)) :
    (longestRun before.length current longest rest).Zeros (before ++ rest) := by
  induction rest generalizing before current longest with
  | nil => exact hlongest
  | cons group rest ih =>
      have hmove : before ++ group :: rest = (before ++ [group]) ++ rest := by simp
      have hplace : before.length + 1 = (before ++ [group]).length := by simp
      rw [hmove] at hlongest ⊢
      by_cases hzero : group = 0
      · have hgrown : (current.grown before.length).Trailing (before ++ [group]) := by
          rw [hzero]
          exact hcurrent.grown
        have hzeros := hgrown.zeros (length_grown_ne_zero _ _) rest
        rw [longestRun, if_pos hzero, hplace]
        change (longestRun _ (current.grown before.length)
          (if longest.length < (current.grown before.length).length then _ else _) rest).Zeros _
        refine ih hgrown ?_
        split
        · exact hzeros
        · exact hlongest
      · rw [longestRun, if_neg hzero, hplace]
        exact ih (.inl rfl) hlongest

theorem Zeros.length_le (h : run.Zeros groups) : run.start + run.length ≤ groups.length := by
  obtain ⟨before, after, hstart, rfl⟩ := h
  simp [hstart]

/-- The groups are the ones before a run, its zeros and the ones after it. -/
theorem Zeros.eq (h : run.Zeros groups) : groups.take run.start ++
    (List.replicate run.length 0 ++ groups.drop (run.start + run.length)) = groups := by
  obtain ⟨before, after, hstart, rfl⟩ := h
  have htake : (before ++ (List.replicate run.length 0 ++ after)).take run.start = before :=
    List.take_left' hstart
  have hdrop : (before ++ (List.replicate run.length 0 ++ after)).drop (run.start + run.length) =
      after := by
    rw [← List.append_assoc]
    exact List.drop_left' (by rw [List.length_append, List.length_replicate, hstart])
  rw [htake, hdrop]

end Run

/-! ### Reading groups -/

theorem mark?_eq_none {c : Char} (h : c ∉ cs) : Text.mark? c cs = none := by
  cases cs with
  | nil => rfl
  | cons d tail =>
      have hne : d ≠ c := fun hsame => h (hsame ▸ List.mem_cons_self)
      rw [Text.mark?, if_neg hne]

theorem suffix_of_octet? (h : octet? cs = some (n, rest)) : rest <:+ cs := by
  obtain ⟨⟨value, tail⟩, hnumber, hvalue⟩ := Option.bind_eq_some_iff.mp h
  rw [number?] at hnumber
  split at hnumber
  · cases hnumber
  · obtain ⟨_, -, hpair⟩ := Option.map_eq_some_iff.mp hnumber
    simp only [Option.ite_none_left_eq_some, Option.some.injEq, Prod.mk.injEq] at hvalue hpair
    rw [← hvalue.2.2, ← hpair.2]
    exact List.drop_suffix _ _

/-- There is no address of 32 bits without a point. -/
theorem address4?_eq_none (h : '.' ∉ cs) : address4? cs = none := by
  cases hoctet : octet? cs with
  | none => rw [address4?, hoctet]; rfl
  | some pair =>
      obtain ⟨n, rest⟩ := pair
      have hmark : Text.mark? '.' rest = none :=
        mark?_eq_none fun hmem => h ((suffix_of_octet? hoctet).subset hmem)
      rw [address4?, hoctet]
      simp [hmark]

theorem address4?_of_endsNumber (h : EndsNumber 10 cs) : address4? cs = none := by
  rw [address4?, octet?, number?_eq_none h]
  rfl

theorem notMem_hexadecimal {c : Char} (h : Text.digit? 16 c = none) (n : Nat) :
    c ∉ Text.hexadecimal n := by
  rintro hmem
  have hdigit := Text.isSome_digit?_of_mem_toDigits (by decide) (by decide) hmem
  rw [h] at hdigit
  exact Bool.false_ne_true hdigit

/-- Groups that come after another one. -/
def laterText (groups : List Nat) : List Char :=
  groups.flatMap fun group => ':' :: Text.hexadecimal group

theorem groupsText_cons (group : Nat) (groups : List Nat) :
    groupsText (group :: groups) = Text.hexadecimal group ++ laterText groups := by
  induction groups generalizing group with
  | nil => simp [groupsText, joinWith, laterText]
  | cons next groups ih =>
      have hnext := ih next
      simp only [groupsText, joinWith, List.map_cons] at hnext ⊢
      rw [List.intercalate_cons_cons, hnext]
      simp [laterText]

theorem point_notMem_laterText (groups : List Nat) : '.' ∉ laterText groups := by
  rw [laterText, List.mem_flatMap]
  rintro ⟨group, -, hmem⟩
  rcases List.mem_cons.mp hmem with hcolon | hmem
  · exact absurd hcolon (by decide)
  · exact notMem_hexadecimal rfl group hmem

theorem point_notMem_groupsText (groups : List Nat) : '.' ∉ groupsText groups := by
  cases groups with
  | nil => exact List.not_mem_nil
  | cons group groups =>
      rw [groupsText_cons, List.mem_append]
      rintro (hmem | hmem)
      · exact notMem_hexadecimal rfl group hmem
      · exact point_notMem_laterText groups hmem

/-- What comes after groups that end there: no digit, no point, and no group after a colon. -/
structure EndsGroups (rest : List Char) : Prop where
  number : EndsNumber 16 rest
  point : '.' ∉ rest
  group : ∀ more, Text.mark? ':' rest = some more → EndsNumber 16 more

theorem endsGroups_nil : EndsGroups [] where
  number := endsNumber_nil 16
  point := List.not_mem_nil
  group _ h := nomatch h

theorem endsGroups_colons (h : '.' ∉ rest) : EndsGroups (':' :: ':' :: rest) where
  number := endsNumber_cons rfl _
  point := by simp [h]
  group more hmore := by
    rw [Text.mark?_cons, Option.some.injEq] at hmore
    exact hmore ▸ endsNumber_cons rfl _

variable {first : Bool} {room group : Nat} {groups : List Nat}

theorem readGroups_eq_nil (h : ∀ more, afterColon? first cs = some more →
      address4? more = none ∧ EndsNumber 16 more) : readGroups first room cs = ([], false, cs) := by
  cases room with
  | zero => rfl
  | succ room =>
      rw [readGroups]
      cases hcolon : afterColon? first cs with
      | none => simp
      | some more =>
          obtain ⟨haddress, hends⟩ := h more hcolon
          simp [haddress, number?_eq_none hends]

theorem readGroups_succ (hcolon : afterColon? first cs = some (Text.hexadecimal group ++ rest))
    (haddress : address4? (Text.hexadecimal group ++ rest) = none) (hgroup : group < 0x10000)
    (hrest : EndsNumber 16 rest) :
    readGroups first (room + 1) cs =
      (group :: (readGroups false room rest).1, (readGroups false room rest).2) := by
  have hnumber : number? 16 4 (Text.hexadecimal group ++ rest) = some (group, rest) :=
    number?_toDigits (by decide) (by decide) (by decide) hgroup hrest
  rw [readGroups]
  simp only [hcolon, Option.bind_some, haddress, hnumber, ite_self]

theorem notMem_of_mark?_eq_some {c d : Char} (h : Text.mark? c cs = some rest) (hd : d ∉ cs) :
    d ∉ rest := by
  cases cs with
  | nil => cases h
  | cons e tail =>
      rw [Text.mark?, Option.ite_none_right_eq_some, Option.some.injEq] at h
      exact h.2 ▸ fun hmem => hd (List.mem_cons_of_mem e hmem)

theorem EndsGroups.endsNumber_laterText (h : EndsGroups rest) (groups : List Nat) :
    EndsNumber 16 (laterText groups ++ rest) := by
  cases groups with
  | nil => exact h.number
  | cons group groups => exact endsNumber_cons rfl _

/-- The first of several groups is read, and then the others. -/
theorem readGroups_first
    (hcolon : afterColon? first cs = some (Text.hexadecimal group ++ (laterText groups ++ rest)))
    (hgroup : group < 0x10000) (hrest : EndsGroups rest)
    (hlater : readGroups false room (laterText groups ++ rest) = (groups, false, rest)) :
    readGroups first (room + 1) cs = (group :: groups, false, rest) := by
  have hpoint : '.' ∉ Text.hexadecimal group ++ (laterText groups ++ rest) := by
    simp only [List.mem_append, not_or]
    exact ⟨notMem_hexadecimal rfl group, point_notMem_laterText groups, hrest.point⟩
  rw [readGroups_succ hcolon (address4?_eq_none hpoint) hgroup (hrest.endsNumber_laterText groups),
    hlater]

theorem readGroups_laterText (hroom : groups.length ≤ room)
    (hgroups : ∀ group ∈ groups, group < 0x10000) (hrest : EndsGroups rest) :
    readGroups false room (laterText groups ++ rest) = (groups, false, rest) := by
  induction groups generalizing room with
  | nil =>
      exact readGroups_eq_nil fun more hmore =>
        ⟨address4?_eq_none (notMem_of_mark?_eq_some hmore hrest.point), hrest.group more hmore⟩
  | cons group groups ih =>
      rw [List.forall_mem_cons] at hgroups
      cases room with
      | zero => exact absurd hroom (Nat.not_succ_le_zero _)
      | succ room =>
          have hcolon : afterColon? false (laterText (group :: groups) ++ rest) =
              some (Text.hexadecimal group ++ (laterText groups ++ rest)) := by
            simp [afterColon?, laterText, Text.mark?_cons]
          exact readGroups_first hcolon hgroups.1 hrest
            (ih (Nat.le_of_succ_le_succ hroom) hgroups.2)

/-- Groups are read back up to where they end, if there is room for them. -/
theorem readGroups_groupsText (hroom : groups.length ≤ room)
    (hgroups : ∀ group ∈ groups, group < 0x10000) (hrest : EndsGroups rest) :
    readGroups true room (groupsText groups ++ rest) = (groups, false, rest) := by
  cases groups with
  | nil =>
      refine readGroups_eq_nil fun more hmore => ?_
      cases hmore
      exact ⟨address4?_eq_none hrest.point, hrest.number⟩
  | cons group groups =>
      rw [List.forall_mem_cons] at hgroups
      cases room with
      | zero => exact absurd hroom (Nat.not_succ_le_zero _)
      | succ room =>
          have hcolon : afterColon? true (groupsText (group :: groups) ++ rest) =
              some (Text.hexadecimal group ++ (laterText groups ++ rest)) := by
            rw [groupsText_cons, List.append_assoc]
            rfl
          exact readGroups_first hcolon hgroups.1 hrest
            (readGroups_laterText (Nat.le_of_succ_le_succ hroom) hgroups.2 hrest)

/-! ### Addresses of 128 bits -/

/-- An address that stands for one of 32 bits shows it, and is read back from there. -/
theorem read6?_mapped (h : address / 0x100000000 = 0xffff) :
    read6? ([':', ':', 'f', 'f', 'f', 'f', ':'] ++ text4 address) = some address := by
  have hoctets : octets address = octets (address % 0x100000000) := by
    simp only [octets, List.cons.injEq, and_true]
    omega
  have haddress : address4? (text4 address) = some (address % 0x100000000, []) := by
    rw [text4, hoctets, ← text4, ← List.append_nil (text4 _)]
    exact address4?_text4 (Nat.mod_lt _ (by decide)) (endsNumber_nil 10)
  have hlast : readGroups false 6 (':' :: text4 address) =
      ([address % 0x100000000 / 0x10000, address % 0x100000000 % 0x10000], true, []) := by
    rw [readGroups]
    simp [afterColon?, Text.mark?_cons, haddress]
  have htail : readGroups true 7 (['f', 'f', 'f', 'f', ':'] ++ text4 address) =
      ([0xffff, address % 0x100000000 / 0x10000, address % 0x100000000 % 0x10000], true, []) := by
    have hcolon : afterColon? true (['f', 'f', 'f', 'f', ':'] ++ text4 address) =
        some (Text.hexadecimal 0xffff ++ ':' :: text4 address) := rfl
    rw [readGroups_succ hcolon (address4?_of_endsNumber (endsNumber_cons rfl _)) (by decide)
      (endsNumber_cons rfl _), hlast]
  have hhead : readGroups true 8 ([':', ':', 'f', 'f', 'f', 'f', ':'] ++ text4 address) =
      ([], false, ':' :: ':' :: (['f', 'f', 'f', 'f', ':'] ++ text4 address)) := by
    refine readGroups_eq_nil fun more hmore => ?_
    cases hmore
    exact ⟨address4?_of_endsNumber (endsNumber_cons rfl _), endsNumber_cons rfl _⟩
  have hsum : ofGroups ([] ++ List.replicate 5 0 ++
      [0xffff, address % 0x100000000 / 0x10000, address % 0x100000000 % 0x10000]) = address := by
    simp only [ofGroups, List.nil_append, List.foldl_append, List.foldl_cons, List.foldl_nil]
    change (0xffff * 0x10000 + address % 0x100000000 / 0x10000) * 0x10000 +
      address % 0x100000000 % 0x10000 = address
    omega
  simp only [read6?, hhead, List.length_nil, Nat.sub_zero, htail]
  exact congrArg some hsum

theorem read6?_groupsText (hlength : groups.length = 8)
    (hgroups : ∀ group ∈ groups, group < 0x10000) :
    read6? (groupsText groups) = some (ofGroups groups) := by
  have hread : readGroups true 8 (groupsText groups) = (groups, false, []) := by
    rw [← List.append_nil (groupsText groups)]
    exact readGroups_groupsText (Nat.le_of_eq hlength) hgroups endsGroups_nil
  simp [read6?, hread, hlength]

/-- Two colons stand for as many zeros as the groups on both sides leave. -/
theorem read6?_colons {before after : List Nat} (hlength : before.length + after.length < 7)
    (hbefore : ∀ group ∈ before, group < 0x10000) (hafter : ∀ group ∈ after, group < 0x10000) :
    read6? (groupsText before ++ ':' :: ':' :: groupsText after) =
      some (ofGroups (before ++ List.replicate (8 - before.length - after.length) 0 ++ after)) := by
  have hhead : readGroups true 8 (groupsText before ++ ':' :: ':' :: groupsText after) =
      (before, false, ':' :: ':' :: groupsText after) :=
    readGroups_groupsText (by omega) hbefore (endsGroups_colons (point_notMem_groupsText after))
  have htail : readGroups true (7 - before.length) (groupsText after) = (after, false, []) := by
    rw [← List.append_nil (groupsText after)]
    exact readGroups_groupsText (by omega) hafter endsGroups_nil
  have hfew : before.length ≠ 8 := by omega
  simp [read6?, hhead, htail, hfew]

theorem read6?_of_zeros {run : Run} (h : run.Zeros groups) (hlong : 1 < run.length)
    (hlength : groups.length = 8) (hgroups : ∀ group ∈ groups, group < 0x10000) :
    read6? (groupsText (groups.take run.start) ++
      ':' :: ':' :: groupsText (groups.drop (run.start + run.length))) =
        some (ofGroups groups) := by
  have hinside := h.length_le
  rw [hlength] at hinside
  have hbefore : (groups.take run.start).length = run.start := by
    rw [List.length_take]
    omega
  have hafter : (groups.drop (run.start + run.length)).length = 8 - (run.start + run.length) := by
    rw [List.length_drop, hlength]
  have hleft : 8 - (groups.take run.start).length -
      (groups.drop (run.start + run.length)).length = run.length := by omega
  rw [read6?_colons (by omega) (fun group hmem => hgroups group (List.mem_of_mem_take hmem))
    (fun group hmem => hgroups group (List.mem_of_mem_drop hmem)), hleft, List.append_assoc, h.eq]

/-- An address of 128 bits is read back from its text. -/
theorem read6?_text6 (h : address < Nat.pow 2 128) : read6? (text6 address) = some address := by
  have hlength := length_groups address
  have hgroups : ∀ group ∈ groups address, group < 0x10000 := fun _ => lt_of_mem_groups
  have hzeros : (longestRun 0 ⟨0, 0⟩ ⟨0, 0⟩ (groups address)).Zeros (groups address) :=
    Run.zeros_longestRun (.inl rfl : Run.Trailing ⟨0, 0⟩ []) (Run.zeros_empty _)
  rw [text6]
  by_cases hmapped : address / 0x100000000 = 0xffff
  · rw [if_pos hmapped]
    exact read6?_mapped hmapped
  · rw [if_neg hmapped]
    dsimp only
    by_cases hlong : 1 < (longestRun 0 ⟨0, 0⟩ ⟨0, 0⟩ (groups address)).length
    · rw [if_pos hlong, read6?_of_zeros hzeros hlong hlength hgroups, ofGroups_groups h]
    · rw [if_neg hlong, read6?_groupsText hlength hgroups, ofGroups_groups h]

end Address

end Specimen
