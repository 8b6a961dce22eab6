import Specimen.Primitive.Lengths
import Specimen.Proofs.FormatDraws

/-!
# Lengths of texts drawn for a format

What a format draws has one of a few lengths. Dates, times and identifiers are all of one length,
names are put together of short words, and addresses of short numbers.
-/

namespace Specimen

theorem Text.length_toDigits_mem {base most n : Nat} (hbase : 1 < base) (hmost : 0 < most)
    (h : n < base ^ most) :
    1 ≤ (Nat.toDigits base n).length ∧ (Nat.toDigits base n).length ≤ most :=
  ⟨Nat.length_toDigits_pos, (Nat.length_toDigits_le_iff hbase hmost).mpr h⟩

namespace Calendar

theorem length_dateText {date : Date} (h : date.Writable) : (dateText date).length = 10 := by
  obtain ⟨hmonth, hday⟩ := Date.lt_of_isValid h.valid
  simp only [dateText, List.length_append, List.length_cons, length_padded (Nat.succ_pos 3)
    h.toNat_year_lt, length_padded Nat.two_pos hmonth, length_padded Nat.two_pos hday]

theorem length_timeText {time : Time} (h : time.isValid = true) : (timeText time).length = 8 := by
  obtain ⟨hhour, hminute, hsecond⟩ := Time.lt_of_isValid h
  simp only [timeText, List.length_append, List.length_cons, length_padded Nat.two_pos hhour,
    length_padded Nat.two_pos hminute, length_padded Nat.two_pos hsecond]

theorem isValid_timeOf (seconds : Int) : (timeOf seconds).isValid = true :=
  isValid_ofSeconds (by omega)

end Calendar

namespace Host

theorem length_drawWord (s : Source) :
    4 ≤ (drawWord s).1.length ∧ (drawWord s).1.length ≤ 7 := by
  have hall : ∀ word ∈ words, 4 ≤ word.toList.length ∧ word.toList.length ≤ 7 := by decide +kernel
  exact hall _ (Draw.choose_mem (List.cons_ne_nil _ _) "fixture" s)

theorem length_domain (s : Source) : 2 ≤ (Draw.choose domains "com" s).1.toList.length ∧
    (Draw.choose domains "com" s).1.toList.length ≤ 3 := by
  have hall : ∀ domain ∈ domains, 2 ≤ domain.toList.length ∧ domain.toList.length ≤ 3 := by
    decide +kernel
  exact hall _ (Draw.choose_mem (List.cons_ne_nil _ _) "com" s)

theorem length_drawName (s : Source) :
    7 ≤ (drawName s).1.length ∧ (drawName s).1.length ≤ 11 := by
  obtain ⟨t, htext⟩ : ∃ t, (drawName s).1 =
      (drawWord t).1 ++ '.' :: (Draw.choose domains "com" s).1.toList := ⟨_, rfl⟩
  have hword := length_drawWord t
  have hdomain := length_domain s
  rw [htext, List.length_append, List.length_cons]
  omega

theorem length_drawMail (s : Source) :
    14 ≤ (drawMail s).1.length ∧ (drawMail s).1.length ≤ 24 := by
  obtain ⟨t, u, htext⟩ : ∃ t u, (drawMail s).1 = ((drawWord s).1 ++
      '.' :: Nat.toDigits 10 (1 + (Draw.below32 9999 t).1)) ++ '@' :: (drawName u).1 :=
    ⟨_, _, rfl⟩
  have hbelow := Draw.below32_lt (show 0 < 9999 by decide) t
  have hword := length_drawWord s
  have hfew : 1 + (Draw.below32 9999 t).1 < 10 ^ 4 := by omega
  have hnumber := Text.length_toDigits_mem (by decide) (by decide) hfew
  have hname := length_drawName u
  simp only [htext, List.length_append, List.length_cons]
  omega

theorem length_drawUri (s : Source) :
    20 ≤ (drawUri s).1.length ∧ (drawUri s).1.length ≤ 27 := by
  obtain ⟨t, htext⟩ : ∃ t, (drawUri s).1 =
      "https://".toList ++ (drawName s).1 ++ '/' :: (drawWord t).1 := ⟨_, rfl⟩
  have hscheme : "https://".toList.length = 8 := rfl
  have hname := length_drawName s
  have hword := length_drawWord t
  simp only [htext, List.length_append, List.length_cons, hscheme]
  omega

end Host

namespace Identifier

theorem length_text : ∀ {bytes : List Nat}, bytes.length = 16 → (text bytes).length = 36
  | [_, _, _, _, _, _, _, _, _, _, _, _, _, _, _, _], _ => rfl

end Identifier

namespace Address

theorem length_text4 (address : Nat) :
    7 ≤ (text4 address).length ∧ (text4 address).length ≤ 15 := by
  have hdecimal {n : Nat} (h : n < 0x100) : 1 ≤ (decimal n).length ∧ (decimal n).length ≤ 3 :=
    Text.length_toDigits_mem (by decide) (by decide) (Nat.lt_trans h (by decide))
  have hfirst := hdecimal (Nat.mod_lt (address / 0x1000000) (by decide))
  have hsecond := hdecimal (Nat.mod_lt (address / 0x10000) (by decide))
  have hthird := hdecimal (Nat.mod_lt (address / 0x100) (by decide))
  have hfourth := hdecimal (Nat.mod_lt address (by decide))
  simp only [text4_eq, List.length_append, List.length_cons]
  omega

theorem length_laterText {groups : List Nat} (h : ∀ group ∈ groups, group < 0x10000) :
    2 * groups.length ≤ (laterText groups).length ∧
      (laterText groups).length ≤ 5 * groups.length := by
  induction groups with
  | nil => exact ⟨Nat.le_refl _, Nat.le_refl _⟩
  | cons group groups ih =>
      obtain ⟨hgroup, hgroups⟩ := List.forall_mem_cons.mp h
      have hdigits : 1 ≤ (Text.hexadecimal group).length ∧ (Text.hexadecimal group).length ≤ 4 :=
        Text.length_toDigits_mem (by decide) (by decide) hgroup
      obtain ⟨hlow, hhigh⟩ := ih hgroups
      have hcons : laterText (group :: groups) =
          ':' :: (Text.hexadecimal group ++ laterText groups) := by simp [laterText]
      simp only [hcons, List.length_cons, List.length_append]
      omega

theorem length_groupsText {groups : List Nat} (h : ∀ group ∈ groups, group < 0x10000) :
    2 * groups.length - 1 ≤ (groupsText groups).length ∧
      (groupsText groups).length ≤ 5 * groups.length - 1 := by
  cases groups with
  | nil => exact ⟨Nat.le_refl 0, Nat.le_refl 0⟩
  | cons group groups =>
      obtain ⟨hgroup, hgroups⟩ := List.forall_mem_cons.mp h
      have hdigits : 1 ≤ (Text.hexadecimal group).length ∧ (Text.hexadecimal group).length ≤ 4 :=
        Text.length_toDigits_mem (by decide) (by decide) hgroup
      obtain ⟨hlow, hhigh⟩ := length_laterText hgroups
      rw [groupsText_cons, List.length_append, List.length_cons]
      omega

/-- At least two groups are left out where two colons stand for them. -/
theorem length_text6 (address : Nat) :
    2 ≤ (text6 address).length ∧ (text6 address).length ≤ 39 := by
  have hlength := length_groups address
  have hgroups : ∀ group ∈ groups address, group < 0x10000 := fun _ => lt_of_mem_groups
  have hzeros : (longestRun 0 ⟨0, 0⟩ ⟨0, 0⟩ (groups address)).Zeros (groups address) :=
    Run.zeros_longestRun (.inl rfl : Run.Trailing ⟨0, 0⟩ []) (Run.zeros_empty _)
  rw [text6]
  by_cases hmapped : address / 0x100000000 = 0xffff
  · have hpoints := length_text4 address
    simp only [if_pos hmapped, List.length_append, List.length_cons, List.length_nil]
    omega
  · rw [if_neg hmapped]
    dsimp only
    generalize longestRun 0 ⟨0, 0⟩ ⟨0, 0⟩ (groups address) = run at hzeros ⊢
    have hinside := hzeros.length_le
    by_cases hlong : 1 < run.length
    · have hbefore : ∀ group ∈ (groups address).take run.start, group < 0x10000 :=
        fun group hmem => hgroups group (List.mem_of_mem_take hmem)
      have hafter : ∀ group ∈ (groups address).drop (run.start + run.length), group < 0x10000 :=
        fun group hmem => hgroups group (List.mem_of_mem_drop hmem)
      have hfirst := length_groupsText hbefore
      have hlast := length_groupsText hafter
      rw [List.length_take] at hfirst
      rw [List.length_drop] at hlast
      simp only [if_pos hlong, List.length_append, List.length_cons]
      omega
    · have hall := length_groupsText hgroups
      rw [if_neg hlong]
      omega

end Address

namespace Format

/-- The lengths of the texts that are drawn for a format. -/
def lengths : Format → Lengths
  | .dateTime => ⟨20, 20, by decide⟩
  | .date => ⟨10, 10, by decide⟩
  | .time => ⟨8, 8, by decide⟩
  | .email => ⟨14, 24, by decide⟩
  | .uuid => ⟨36, 36, by decide⟩
  | .uri => ⟨20, 27, by decide⟩
  | .hostname => ⟨7, 11, by decide⟩
  | .ipv4 => ⟨7, 15, by decide⟩
  | .ipv6 => ⟨2, 39, by decide⟩

theorem length_draw (format : Format) (s : Source) :
    format.lengths.min ≤ (format.draw s).1.length ∧
      (format.draw s).1.length ≤ format.lengths.max := by
  have hdate := Calendar.length_dateText (Calendar.writable_dateOf_drawInstant s)
  have htime := Calendar.length_timeText (Calendar.isValid_timeOf (Calendar.drawInstant s).1)
  cases format with
  | dateTime =>
      change 20 ≤ (Calendar.instantText (Calendar.drawInstant s).1).length ∧
        (Calendar.instantText (Calendar.drawInstant s).1).length ≤ 20
      simp only [Calendar.instantText, List.length_append, List.length_cons, List.length_nil, hdate,
        htime]
      decide
  | date => exact ⟨hdate.ge, hdate.le⟩
  | time => exact ⟨htime.ge, htime.le⟩
  | email => exact Host.length_drawMail s
  | uuid =>
      have htext := Identifier.length_text (Identifier.stamped_draw s).length
      exact ⟨htext.ge, htext.le⟩
  | uri => exact Host.length_drawUri s
  | hostname => exact Host.length_drawName s
  | ipv4 => exact Address.length_text4 (Address.drawAddress4 s).1
  | ipv6 => exact Address.length_text6 (Address.drawAddress6 s).1

theorem contains_lengths (format : Format) (s : Source) :
    format.lengths.contains (format.draw s).1.length = true := by
  have hlength := format.length_draw s
  simpa only [Lengths.contains, Bool.and_eq_true, decide_eq_true_eq] using hlength

end Format

end Specimen
