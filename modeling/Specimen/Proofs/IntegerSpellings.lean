import Specimen.Proofs.BoundEdges

/-!
# The two spellings of an integer

A whole number is written as an integer or as a float. An integer leaf takes a float as the number
that it stands for when that is less than `2 ^ 63` in size, and so it judges both spellings alike
but for one number: `-2 ^ 63` has 64 bits as an integer, while its size as a float is just too
large.
-/

namespace Specimen

namespace IntegerRange

open Double

variable {range : IntegerRange} {x : Double} {n : Int}

/-- The size test on both sides leaves the integers of 64 bits but the least. -/
theorem integer?_float_of_denotes (h : x.Denotes n) :
    integer? (.float x) = if minInt64 < n ∧ n ≤ maxInt64 then some n else none := by
  have habove : limit.neg.lt x = decide (minInt64 < n) := by
    rw [Bool.eq_iff_iff, decide_eq_true_iff]
    exact denotes_limit.neg.lt_iff h
  have hbelow : x.lt limit = decide (n ≤ maxInt64) := by
    rw [Bool.eq_iff_iff, decide_eq_true_iff, h.lt_iff denotes_limit]
    unfold maxInt64
    omega
  have hwhole : x.isIntegral = true := isIntegral_iff.mpr ⟨n, h⟩
  simp only [integer?, Json.int64?, Json.double?, hwhole, habove, hbelow, Bool.true_and,
    Bool.and_eq_true, decide_eq_true_eq]
  split
  next hinside =>
    obtain ⟨hleast, hgreatest⟩ := hinside
    rw [h.toInt64, if_neg (Int.not_lt.mpr hleast.le), if_neg (Int.not_lt.mpr hgreatest)]
  next => rfl

/-- A float is accepted when it stands for an accepted integer that is not the least. -/
theorem validate_float_of_denotes (h : x.Denotes n) :
    range.leaf.validate (.float x) =
      some (decide (minInt64 < n ∧ n ≤ maxInt64) && range.contains n) := by
  simp only [leaf, integer?_float_of_denotes h]
  by_cases hinside : minInt64 < n ∧ n ≤ maxInt64
  · rw [if_pos hinside, decide_eq_true hinside, Bool.true_and]
  · rw [if_neg hinside, decide_eq_false hinside, Bool.false_and]

theorem validate_float_of_not_isIntegral (h : x.isIntegral = false) :
    range.leaf.validate (.float x) = some false := by
  have hnone : integer? (.float x) = none := by
    simp [integer?, Json.int64?, Json.double?, h]
  simp only [leaf, hnone]

theorem validate_float_eq_validate_int_iff (h : x.Denotes n) (hn : Fits n) :
    range.leaf.validate (.float x) = range.leaf.validate (.int n) ↔
      ¬ (n = minInt64 ∧ range.contains n = true) := by
  rw [validate_float_of_denotes h, validate_leaf hn, Option.some.injEq]
  by_cases hleast : n = minInt64
  · -- The float is turned down, so the integer has to be outside the range.
    have houtside : ¬ (minInt64 < n ∧ n ≤ maxInt64) := by omega
    rw [decide_eq_false houtside, Bool.false_and]
    cases range.contains n <;> simp [hleast]
  · have hinside : minInt64 < n ∧ n ≤ maxInt64 := by
      obtain ⟨hlow, hhigh⟩ := hn
      omega
    rw [decide_eq_true hinside, Bool.true_and]
    simp [hleast]

/-- A float outside the integers of 64 bits is turned down, whole or not. -/
theorem validate_float_of_outside (h : x.value < -2 ^ 63 ∨ 2 ^ 63 ≤ x.value) :
    range.leaf.validate (.float x) = some false := by
  cases hwhole : x.isIntegral with
  | false => exact validate_float_of_not_isIntegral hwhole
  | true =>
      obtain ⟨n, hn⟩ := isIntegral_iff.mp hwhole
      have houtside : ¬ (minInt64 < n ∧ n ≤ maxInt64) := by
        rw [hn.value] at h
        norm_num at h
        have hcast : n < -9223372036854775808 ∨ 9223372036854775808 ≤ n := by exact_mod_cast h
        unfold minInt64 maxInt64
        omega
      rw [validate_float_of_denotes hn, decide_eq_false houtside, Bool.false_and]

/-- The two spellings of a whole number of 64 bits are judged alike unless it is the least one and
in the range; a float that is no whole number of 64 bits is turned down. -/
theorem validate_spellings (range : IntegerRange) :
    (∀ x n, x.Denotes n → Fits n →
      (range.leaf.validate (.float x) = range.leaf.validate (.int n) ↔
        ¬ (n = minInt64 ∧ range.contains n = true))) ∧
    ∀ x, (x.isIntegral = false ∨ x.value < -2 ^ 63 ∨ 2 ^ 63 ≤ x.value) →
      range.leaf.validate (.float x) = some false := by
  refine ⟨fun x n h hn => validate_float_eq_validate_int_iff h hn, fun x h => ?_⟩
  rcases h with hfraction | houtside
  · exact validate_float_of_not_isIntegral hfraction
  · exact validate_float_of_outside houtside

/-- Integers from the least one up to zero. -/
def lowest : IntegerRange :=
  ⟨minInt64, 0, none⟩

theorem ofConstraints_lowest : ofConstraints (spacedBounds minInt64 0) = .ok lowest := by
  decide +kernel

/-- Minus four is judged alike in both spellings, two and a half and `2 ^ 63` are turned down. -/
theorem validate_spellings_lowest :
    lowest.leaf.validate (.float (Double.ofInt (-4))) = lowest.leaf.validate (.int (-4)) ∧
      lowest.leaf.validate (.float fraction) = some false ∧
      lowest.leaf.validate (.float limit) = some false := by
  have hfour : (Double.ofInt (-4)).Denotes (-4) := denotes_ofInt_of_le (by decide)
  have hlimit : (2 : ℚ) ^ 63 ≤ limit.value := by
    rw [denotes_limit.value]
    norm_num
  refine ⟨?_, ?_, ?_⟩
  · exact ((validate_spellings lowest).1 _ _ hfour (by decide)).mpr (by decide)
  · exact (validate_spellings lowest).2 _ (.inl (by decide +kernel))
  · exact (validate_spellings lowest).2 _ (.inr (.inr hlimit))

/-- The least integer of 64 bits is accepted as an integer and turned down as a float. -/
theorem exists_validate_ne :
    ∃ range x n, ofConstraints (spacedBounds minInt64 0) = .ok range ∧ x.Denotes n ∧
      (-2 ^ 63 ≤ n ∧ n < 2 ^ 63) ∧ range.leaf.validate (.int n) = some true ∧
      range.leaf.validate (.float x) = some false := by
  have hdenotes : limit.neg.Denotes minInt64 := denotes_limit.neg
  refine ⟨lowest, limit.neg, minInt64, ofConstraints_lowest, hdenotes, by decide, ?_, ?_⟩
  · rw [validate_leaf (by decide)]
    decide
  · rw [validate_float_of_denotes hdenotes]
    decide

end IntegerRange

end Specimen
