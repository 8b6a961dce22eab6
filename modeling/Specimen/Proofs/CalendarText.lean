import Specimen.Format.Calendar
import Specimen.Proofs.Addressing
import Specimen.Proofs.CalendarDays
import Specimen.Proofs.LeafValues

/-!
# Dates and times as text

A number that is padded to the digits a reader takes is read back, and from these numbers a date, a
time of day or an instant is put together again as it was written.
-/

namespace Specimen

namespace Calendar

variable {width n least most : Nat} {rest : List Char}

theorem isDigit_of_mem_padded {c : Char} (h : c ∈ padded width n) : c.isDigit = true := by
  rw [padded, List.mem_append] at h
  rcases h with hzero | hdigit
  · rw [List.eq_of_mem_replicate hzero]
    rfl
  · exact Nat.isDigit_of_mem_toDigits (by decide) (by decide) hdigit

theorem length_padded (hwidth : 0 < width) (h : n < 10 ^ width) :
    (padded width n).length = width := by
  have hdigits : (Nat.toDigits 10 n).length ≤ width :=
    (Nat.length_toDigits_le_iff (by decide) hwidth).mpr h
  rw [padded, List.length_append, List.length_replicate]
  omega

theorem decimalValue_padded (width n : Nat) : Text.decimalValue (padded width n) = n := by
  rw [Text.decimalValue_eq_ofDigitChars, padded, Nat.ofDigitChars_append,
    Nat.ofDigitChars_replicate_zero, Nat.mul_zero, Nat.ofDigitChars_ten_toDigits]

/-- A number in as many digits as a reader takes is read back, whatever comes after it. -/
theorem number?_padded (hmost : 0 < most) (hleast : least ≤ most) (h : n < 10 ^ most) :
    number? least most (padded most n ++ rest) = some (n, rest) := by
  have hlength := length_padded hmost h
  have htake : (padded most n ++ rest).take most = padded most n := List.take_left' hlength
  have hdigits : (padded most n).takeWhile Char.isDigit = padded most n :=
    List.takeWhile_eq_self_iff.mpr fun c hc => isDigit_of_mem_padded hc
  have hdrop : (padded most n ++ rest).drop most = rest := List.drop_left' hlength
  simp only [number?, htake, hdigits, hlength, hdrop, decimalValue_padded]
  exact if_neg (Nat.not_lt.mpr hleast)

theorem isSpace_of_isDigit {c : Char} (h : c.isDigit = true) : isSpace c = false := by
  have hcode : 48 ≤ c.toNat ∧ c.toNat ≤ 57 := by
    simp only [Char.isDigit, Bool.and_eq_true, decide_eq_true_eq] at h
    exact h
  simp only [isSpace, Pattern.spaceRanges, List.any_cons, List.any_nil, Bool.or_eq_false_iff,
    Bool.and_eq_false_iff, decide_eq_false_iff_not, and_true]
  omega

theorem exists_padded_eq_cons (hwidth : 0 < width) (h : n < 10 ^ width) :
    ∃ c digits, padded width n = c :: digits ∧ c.isDigit = true := by
  obtain ⟨c, digits, hcons⟩ : ∃ c digits, padded width n = c :: digits :=
    List.exists_cons_of_length_pos (by rwa [length_padded hwidth h])
  exact ⟨c, digits, hcons, isDigit_of_mem_padded (hcons ▸ List.mem_cons_self)⟩

theorem dropWhile_isSpace_padded (hwidth : 0 < width) (h : n < 10 ^ width) (rest : List Char) :
    (padded width n ++ rest).dropWhile isSpace = padded width n ++ rest := by
  obtain ⟨c, digits, hcons, hdigit⟩ := exists_padded_eq_cons hwidth h
  rw [hcons, List.cons_append, List.dropWhile_cons_of_neg (by simp [isSpace_of_isDigit hdigit])]

theorem padded_append_ne_cons (hwidth : 0 < width) (h : n < 10 ^ width) {mark : Char}
    (hmark : mark.isDigit = false) (tail : List Char) : padded width n ++ rest ≠ mark :: tail := by
  obtain ⟨c, digits, hcons, hdigit⟩ := exists_padded_eq_cons hwidth h
  rw [hcons, List.cons_append]
  rintro hsame
  rw [(List.cons.inj hsame).1, hmark] at hdigit
  exact Bool.false_ne_true hdigit

theorem looseNumber?_padded (h : n < 10 ^ 2) (rest : List Char) :
    looseNumber? (padded 2 n ++ rest) = some (n, rest) := by
  rw [looseNumber?, dropWhile_isSpace_padded Nat.two_pos h,
    number?_padded Nat.two_pos (by decide) h]

theorem looseYear?_padded (h : n < 10 ^ 4) (rest : List Char) :
    looseYear? (padded 4 n ++ rest) = some ((n : Int), rest) := by
  rw [looseYear?, dropWhile_isSpace_padded (Nat.succ_pos _) h]
  split
  · exact absurd ‹_› (padded_append_ne_cons (Nat.succ_pos _) h rfl _)
  · exact absurd ‹_› (padded_append_ne_cons (Nat.succ_pos _) h rfl _)
  · rw [number?_padded (Nat.succ_pos _) (by decide) h]
    rfl

/-! ### Dates and times as text -/

theorem Date.lt_of_isValid {date : Date} (h : date.isValid = true) :
    date.month < 10 ^ 2 ∧ date.day < 10 ^ 2 := by
  simp only [Date.isValid, Bool.and_eq_true, decide_eq_true_eq] at h
  obtain ⟨⟨⟨-, hmonth⟩, -⟩, hday⟩ := h
  have hlength : daysInMonth date.year date.month ≤ 31 := by
    unfold daysInMonth
    split
    · split <;> decide
    all_goals decide
  omega

/-- A date that can be written: one of the calendar, in a year of at most four digits. -/
structure Date.Writable (date : Date) : Prop where
  valid : date.isValid = true
  nonneg : 0 ≤ date.year
  four_digits : date.year < 10 ^ 4

theorem Date.Writable.toNat_year_lt {date : Date} (h : date.Writable) :
    date.year.toNat < 10 ^ 4 := by
  have hfour := h.four_digits
  omega

theorem readDate?_dateText {date : Date} (h : date.Writable) :
    readDate? (dateText date) = some date := by
  obtain ⟨hmonth, hday⟩ := Date.lt_of_isValid h.valid
  have hyear := h.toNat_year_lt
  have hcast : (date.year.toNat : Int) = date.year := Int.toNat_of_nonneg h.nonneg
  simp only [readDate?, dateText, List.append_assoc, List.cons_append, Option.bind_eq_bind,
    Option.bind_some, looseYear?_padded hyear, looseNumber?_padded hmonth, Text.mark?_cons]
  rw [← List.append_nil (padded 2 date.day), looseNumber?_padded hday, Option.bind_some, hcast]
  exact if_pos ⟨rfl, h.valid⟩

theorem Time.lt_of_isValid {time : Time} (h : time.isValid = true) :
    time.hour < 10 ^ 2 ∧ time.minute < 10 ^ 2 ∧ time.second < 10 ^ 2 := by
  simp only [Time.isValid, Bool.and_eq_true, decide_eq_true_eq] at h
  omega

theorem readTime?_timeText {time : Time} (hvalid : time.isValid = true) :
    readTime? (timeText time) = some time := by
  obtain ⟨hhour, hminute, hsecond⟩ := Time.lt_of_isValid hvalid
  simp only [readTime?, timeText, List.append_assoc, List.cons_append, Option.bind_eq_bind,
    Option.bind_some, looseNumber?_padded hhour, looseNumber?_padded hminute, Text.mark?_cons]
  rw [← List.append_nil (padded 2 time.second), looseNumber?_padded hsecond, Option.bind_some]
  exact if_pos ⟨rfl, hvalid⟩

theorem isValid_ofSeconds {seconds : Nat} (h : seconds < 86400) :
    (Time.ofSeconds seconds).isValid = true := by
  simp only [Time.isValid, Bool.and_eq_true, decide_eq_true_eq]
  simp only [Time.ofSeconds]
  omega

/-- An instant is read back from the text of its date and its time of day, in universal time. -/
theorem readInstant?_instantText {seconds : Int} (h : (dateOf seconds).Writable) :
    readInstant? (instantText seconds) = some seconds := by
  obtain ⟨hmonth, hday⟩ := Date.lt_of_isValid h.valid
  have hyear := h.toNat_year_lt
  have hcast : ((dateOf seconds).year.toNat : Int) = (dateOf seconds).year :=
    Int.toNat_of_nonneg h.nonneg
  have htime : (timeOf seconds).isValid = true := isValid_ofSeconds (by omega)
  obtain ⟨hhour, hminute, hsecond⟩ := Time.lt_of_isValid htime
  have hdays : (dateOf seconds).toDays = seconds / 86400 := toDays_ofDays _
  have hsum : ((timeOf seconds).hour * 3600 + (timeOf seconds).minute * 60 +
      (timeOf seconds).second : Int) = seconds % 86400 := by
    simp only [timeOf, Time.ofSeconds]
    omega
  have htwo {n : Nat} (h : n < 10 ^ 2) (rest : List Char) :
      number? 2 2 (padded 2 n ++ rest) = some (n, rest) :=
    number?_padded Nat.two_pos le_rfl h
  have hskip : skipFraction? ['Z'] = some ['Z'] := rfl
  have hoffset : readOffset? ['Z'] = some 0 := rfl
  simp only [instantText, dateText, timeText, List.append_assoc, List.cons_append]
  refine Option.bind_eq_some_iff.mpr ⟨_, number?_padded (Nat.succ_pos _) le_rfl hyear, ?_⟩
  refine Option.bind_eq_some_iff.mpr ⟨_, Text.mark?_cons '-' _, ?_⟩
  refine Option.bind_eq_some_iff.mpr ⟨_, htwo hmonth _, ?_⟩
  refine Option.bind_eq_some_iff.mpr ⟨_, Text.mark?_cons '-' _, ?_⟩
  refine Option.bind_eq_some_iff.mpr ⟨_, htwo hday _, ?_⟩
  refine Option.bind_eq_some_iff.mpr ⟨_, htwo hhour _, ?_⟩
  refine Option.bind_eq_some_iff.mpr ⟨_, Text.mark?_cons ':' _, ?_⟩
  refine Option.bind_eq_some_iff.mpr ⟨_, htwo hminute _, ?_⟩
  refine Option.bind_eq_some_iff.mpr ⟨_, Text.mark?_cons ':' _, ?_⟩
  refine Option.bind_eq_some_iff.mpr ⟨_, htwo hsecond _, ?_⟩
  refine Option.bind_eq_some_iff.mpr ⟨_, hskip, Option.bind_eq_some_iff.mpr ⟨_, hoffset, ?_⟩⟩
  rw [hcast, hsum]
  refine (if_pos ⟨rfl, h.valid, htime⟩).trans (congrArg some ?_)
  change (dateOf seconds).toDays * 86400 + seconds % 86400 - 0 * 60 = seconds
  omega

/-! ### Drawn instants -/

theorem drawInstant_mem (s : Source) :
    firstInstant ≤ (drawInstant s).1 ∧ (drawInstant s).1 < endInstant := by
  have hrange : firstInstant ≤ (drawInstant s).1 ∧ (drawInstant s).1 ≤ endInstant - 1 :=
    Draw.intBetween_mem (by decide) (by decide) (by decide) s
  omega

/-- Instants from 2000 to 2029 lie in the fourth and the fifth era, and so in years of four
digits. -/
theorem writable_dateOf_drawInstant (s : Source) : (dateOf (drawInstant s).1).Writable := by
  obtain ⟨hfirst, hend⟩ := drawInstant_mem s
  generalize (drawInstant s).1 = seconds at hfirst hend ⊢
  obtain ⟨era, d, hdays⟩ := exists_eraDay (seconds / 86400)
  have hdate : dateOf seconds = d.date era := by rw [dateOf, hdays, d.ofDays_eq]
  have hnumber := d.number_lt
  have hyear := d.yearOfEra_lt
  unfold firstInstant at hfirst
  unfold endInstant at hend
  have hera : 4 ≤ era ∧ era ≤ 5 := by omega
  have hfour : 0 ≤ (d.date era).year ∧ (d.date era).year < 10 ^ 4 := by
    simp only [EraDay.date]
    split <;> omega
  have hvalid : (d.date era).isValid = true :=
    d.isValid_date (by unfold Date.minYear; omega) (by unfold Date.maxYear; omega)
  rw [hdate]
  exact ⟨hvalid, hfour.1, hfour.2⟩

theorem readInstant?_drawInstant (s : Source) :
    readInstant? (instantText (drawInstant s).1) = some (drawInstant s).1 :=
  readInstant?_instantText (writable_dateOf_drawInstant s)

theorem readDate?_drawInstant (s : Source) :
    readDate? (dateText (dateOf (drawInstant s).1)) = some (dateOf (drawInstant s).1) :=
  readDate?_dateText (writable_dateOf_drawInstant s)

theorem readTime?_drawInstant (s : Source) :
    readTime? (timeText (timeOf (drawInstant s).1)) = some (timeOf (drawInstant s).1) :=
  readTime?_timeText (isValid_ofSeconds (by omega))

end Calendar

end Specimen
