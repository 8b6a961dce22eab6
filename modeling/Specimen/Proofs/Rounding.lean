import Mathlib.Algebra.Order.Ring.Rat
import Mathlib.Tactic.Ring
import Specimen.Double.Arithmetic

/-!
# Rounding

A count of units is rounded to a magnitude: the magnitudes are the counts with at most 53 binary
digits before their zeros, in order. Rounding keeps this order and leaves a count that is one of them
as it is, and so every operation that rounds once is monotone, and exact where its result has a place
among the doubles. In particular whole numbers up to `2 ^ 53` are kept, with the sums that stay among
them.
-/

namespace Specimen

namespace Double

/-! ### Magnitudes in order -/

theorem fractionCount_eq : fractionCount = 2 ^ 52 := by decide

theorem unitsOfMagnitude_shift {shift count : Nat} (hle : count ≤ 2 * fractionCount)
    (hnormal : shift = 0 ∨ fractionCount ≤ count) :
    unitsOfMagnitude (shift * fractionCount + count) = count * 2 ^ shift := by
  have hpos : 0 < fractionCount := by decide
  generalize hF : fractionCount = F at *
  rw [unitsOfMagnitude, hF, Nat.pow_eq]
  rcases Nat.lt_or_ge count F with hsmall | hlarge
  · obtain rfl : shift = 0 := by omega
    rw [Nat.zero_mul, Nat.zero_add, if_pos (Nat.div_eq_of_lt hsmall), Nat.mod_eq_of_lt hsmall,
      Nat.pow_zero, Nat.mul_one]
  · rcases Nat.lt_or_ge count (2 * F) with hbelow | hend
    · have hdecomposed : shift * F + count = (count - F) + F * (shift + 1) := by
        rw [Nat.mul_add, Nat.mul_comm F shift]
        omega
      have hfraction : count - F < F := by omega
      rw [hdecomposed, Nat.add_mul_div_left _ _ hpos, Nat.add_mul_mod_self_left,
        Nat.div_eq_of_lt hfraction, Nat.mod_eq_of_lt hfraction, if_neg (by omega)]
      congr 1 <;> grind
    · obtain rfl : count = 2 * F := by omega
      have hdecomposed : shift * F + 2 * F = F * (shift + 2) := by ring
      rw [hdecomposed, Nat.mul_div_cancel_left _ hpos, Nat.mul_mod_right, if_neg (by omega)]
      have hexponent : shift + 2 - 1 = shift + 1 := by omega
      rw [hexponent, Nat.pow_succ]
      ring

theorem exists_shift (magnitude : Nat) : ∃ shift count,
    magnitude = shift * fractionCount + count ∧ count < 2 * fractionCount ∧
      (shift = 0 ∨ fractionCount ≤ count) := by
  have hpos : 0 < fractionCount := by decide
  generalize fractionCount = F at *
  have hdecomposed := Nat.div_add_mod magnitude F
  have hfraction := Nat.mod_lt magnitude hpos
  rcases Nat.eq_zero_or_pos (magnitude / F) with hzero | hnormal
  · refine ⟨0, magnitude, by omega, ?_, .inl rfl⟩
    rw [hzero] at hdecomposed
    omega
  · obtain ⟨shift, hshift⟩ := Nat.exists_eq_succ_of_ne_zero hnormal.ne'
    refine ⟨shift, F + magnitude % F, ?_, by omega, .inr (Nat.le_add_right _ _)⟩
    rw [hshift] at hdecomposed
    grind

theorem unitsOfMagnitude_lt_succ (magnitude : Nat) :
    unitsOfMagnitude magnitude < unitsOfMagnitude (magnitude + 1) := by
  obtain ⟨shift, count, rfl, hlt, hnormal⟩ := exists_shift magnitude
  have hnext : shift = 0 ∨ fractionCount ≤ count + 1 := hnormal.imp_right Nat.le_succ_of_le
  rw [Nat.add_assoc, unitsOfMagnitude_shift hlt.le hnormal, unitsOfMagnitude_shift hlt hnext]
  exact Nat.mul_lt_mul_of_pos_right (Nat.lt_succ_self count) (Nat.two_pow_pos shift)

theorem strictMono_unitsOfMagnitude : StrictMono unitsOfMagnitude :=
  strictMono_nat_of_lt_succ unitsOfMagnitude_lt_succ

/-! ### Rounding a ratio -/

theorem bitLength_le_iff {n k : Nat} : bitLength n ≤ k ↔ n < 2 ^ k := by
  rw [bitLength]
  split
  next hzero => simp [hzero]
  next hne => exact Nat.log2_lt hne

theorem roundHalfEven_mem (n d : Nat) :
    n / d ≤ roundHalfEven n d ∧ roundHalfEven n d ≤ n / d + 1 := by
  simp only [roundHalfEven]
  split_ifs <;> omega

theorem roundHalfEven_mul {d : Nat} (hd : 0 < d) (q : Nat) : roundHalfEven (q * d) d = q := by
  simp only [roundHalfEven, Nat.mul_div_cancel q hd, Nat.mul_mod_left, Nat.mul_zero, if_pos hd]

theorem roundHalfEven_mono {n n' : Nat} (h : n ≤ n') (d : Nat) :
    roundHalfEven n d ≤ roundHalfEven n' d := by
  rcases (Nat.div_le_div_right (c := d) h).lt_or_eq with hlt | heq
  · have hbelow := (roundHalfEven_mem n d).2
    have habove := (roundHalfEven_mem n' d).1
    omega
  · have hn := Nat.div_add_mod n d
    have hn' := Nat.div_add_mod n' d
    rw [heq] at hn
    simp only [roundHalfEven, heq]
    split_ifs <;> omega

section Ratio

variable {n n' d shift : Nat}

theorem roundHalfEven_le (hd : 0 < d) (h : bitLength (n / d) ≤ 53 + shift) :
    roundHalfEven n (d * 2 ^ shift) ≤ 2 * fractionCount := by
  have hpos : 0 < d * 2 ^ shift := Nat.mul_pos hd (Nat.two_pow_pos shift)
  have hn : n ≤ 2 * fractionCount * (d * 2 ^ shift) := by
    have hlt := (Nat.div_lt_iff_lt_mul hd).mp (bitLength_le_iff.mp h)
    calc
      n ≤ 2 ^ (53 + shift) * d := hlt.le
      _ = 2 * fractionCount * (d * 2 ^ shift) := by rw [fractionCount_eq]; ring
  calc
    roundHalfEven n (d * 2 ^ shift)
      ≤ roundHalfEven (2 * fractionCount * (d * 2 ^ shift)) (d * 2 ^ shift) :=
        roundHalfEven_mono hn _
    _ = 2 * fractionCount := roundHalfEven_mul hpos _

theorem le_roundHalfEven (hd : 0 < d) (h : 52 + shift < bitLength (n / d)) :
    fractionCount ≤ roundHalfEven n (d * 2 ^ shift) := by
  have hpos : 0 < d * 2 ^ shift := Nat.mul_pos hd (Nat.two_pow_pos shift)
  have hn : fractionCount * (d * 2 ^ shift) ≤ n := by
    have hle : 2 ^ (52 + shift) ≤ n / d := Nat.not_lt.mp (mt bitLength_le_iff.mpr (Nat.not_le.mpr h))
    calc
      fractionCount * (d * 2 ^ shift) = 2 ^ (52 + shift) * d := by rw [fractionCount_eq]; ring
      _ ≤ n := (Nat.le_div_iff_mul_le hd).mp hle
  calc
    fractionCount = roundHalfEven (fractionCount * (d * 2 ^ shift)) (d * 2 ^ shift) :=
        (roundHalfEven_mul hpos _).symm
    _ ≤ roundHalfEven n (d * 2 ^ shift) := roundHalfEven_mono hn _

/-- The shift that leaves at most 53 digits, and the count that is left, make up the magnitude. -/
theorem magnitudeOfRatio_eq (h : bitLength (n / d) - 53 = shift) :
    magnitudeOfRatio n d =
      Min.min (shift * fractionCount + roundHalfEven n (d * 2 ^ shift)) infiniteMagnitude := by
  simp only [magnitudeOfRatio, h, Nat.pow_eq]
  split <;> omega

theorem magnitudeOfRatio_le (n d : Nat) : magnitudeOfRatio n d ≤ infiniteMagnitude := by
  rw [magnitudeOfRatio_eq rfl]
  exact Nat.min_le_right _ _

theorem magnitudeOfRatio_mono (hd : 0 < d) (h : n ≤ n') :
    magnitudeOfRatio n d ≤ magnitudeOfRatio n' d := by
  have hlength : bitLength (n / d) ≤ bitLength (n' / d) := by
    rw [bitLength_le_iff]
    exact (Nat.div_le_div_right h).trans_lt (bitLength_le_iff.mp le_rfl)
  rw [magnitudeOfRatio_eq rfl, magnitudeOfRatio_eq rfl]
  refine min_le_min_right _ ?_
  rcases (Nat.sub_le_sub_right hlength 53).lt_or_eq with hlt | heq
  · -- A longer ratio starts where the counts of a shorter one end.
    have hcount : roundHalfEven n (d * 2 ^ (bitLength (n / d) - 53)) ≤ 2 * fractionCount :=
      roundHalfEven_le hd (by omega)
    have hcount' : fractionCount ≤ roundHalfEven n' (d * 2 ^ (bitLength (n' / d) - 53)) :=
      le_roundHalfEven hd (by omega)
    have hshift : (bitLength (n / d) - 53 + 1) * fractionCount ≤
        (bitLength (n' / d) - 53) * fractionCount := Nat.mul_le_mul_right _ hlt
    rw [Nat.add_mul, Nat.one_mul] at hshift
    omega
  · rw [heq]
    exact Nat.add_le_add_left (roundHalfEven_mono h _) _

/-- The units of a magnitude are rounded to that magnitude. -/
theorem magnitudeOfRatio_unitsOfMagnitude {magnitude : Nat} (h : magnitude ≤ infiniteMagnitude) :
    magnitudeOfRatio (unitsOfMagnitude magnitude) 1 = magnitude := by
  obtain ⟨shift, count, rfl, hlt, hnormal⟩ := exists_shift magnitude
  have hlength : bitLength (count * 2 ^ shift) - 53 = shift := by
    have hle : bitLength (count * 2 ^ shift) ≤ 53 + shift := by
      rw [bitLength_le_iff, Nat.pow_add]
      exact Nat.mul_lt_mul_of_pos_right hlt (Nat.two_pow_pos shift)
    rcases hnormal with rfl | hnormal
    · omega
    · have hge : ¬ bitLength (count * 2 ^ shift) ≤ 52 + shift := by
        rw [bitLength_le_iff, Nat.pow_add, Nat.not_lt]
        exact Nat.mul_le_mul_right _ hnormal
      omega
  rw [← Nat.div_one (count * 2 ^ shift)] at hlength
  rw [unitsOfMagnitude_shift hlt.le hnormal, magnitudeOfRatio_eq hlength, Nat.one_mul,
    roundHalfEven_mul (Nat.two_pow_pos shift), Nat.min_eq_left h]

/-- The units of a count after rounding. -/
theorem unitsOfMagnitude_magnitudeOfRatio (hshift : bitLength n - 53 = shift)
    (hfinite : magnitudeOfRatio n 1 < infiniteMagnitude) :
    unitsOfMagnitude (magnitudeOfRatio n 1) = roundHalfEven n (2 ^ shift) * 2 ^ shift := by
  rw [← Nat.div_one n] at hshift
  have hcount : roundHalfEven n (1 * 2 ^ shift) ≤ 2 * fractionCount :=
    roundHalfEven_le Nat.one_pos (by omega)
  have hnormal : shift = 0 ∨ fractionCount ≤ roundHalfEven n (1 * 2 ^ shift) := by
    rcases Nat.eq_zero_or_pos shift with hzero | hpos
    · exact .inl hzero
    · exact .inr (le_roundHalfEven Nat.one_pos (by omega))
  rw [magnitudeOfRatio_eq hshift] at hfinite ⊢
  rw [Nat.min_eq_left (by omega), unitsOfMagnitude_shift hcount hnormal, Nat.one_mul]

/-- A count is kept if what the shift drops are zeros. -/
theorem unitsOfMagnitude_of_dvd (h : 2 ^ (bitLength n - 53) ∣ n)
    (hfinite : magnitudeOfRatio n 1 < infiniteMagnitude) :
    unitsOfMagnitude (magnitudeOfRatio n 1) = n := by
  rw [unitsOfMagnitude_magnitudeOfRatio rfl hfinite]
  generalize bitLength n - 53 = shift at h
  obtain ⟨count, rfl⟩ := h
  rw [Nat.mul_comm (2 ^ shift), roundHalfEven_mul (Nat.two_pow_pos shift)]

theorem two_pow_dvd_of_le {count : Nat} (h : count ≤ 2 ^ 53) (zeros : Nat) :
    2 ^ (bitLength (count * 2 ^ zeros) - 53) ∣ count * 2 ^ zeros := by
  rcases h.lt_or_eq with hlt | rfl
  · have hlength : bitLength (count * 2 ^ zeros) ≤ 53 + zeros := by
      rw [bitLength_le_iff, Nat.pow_add]
      exact Nat.mul_lt_mul_of_pos_right hlt (Nat.two_pow_pos zeros)
    exact (Nat.pow_dvd_pow 2 (by omega)).mul_left count
  · have hlength : bitLength (2 ^ (53 + zeros)) ≤ 53 + zeros + 1 := by
      rw [bitLength_le_iff]
      exact Nat.pow_lt_pow_succ Nat.one_lt_two
    rw [← Nat.pow_add]
    exact Nat.pow_dvd_pow 2 (by omega)

/-- Rounding keeps the zeros that a count ends in. -/
theorem two_pow_dvd_unitsOfMagnitude {zeros : Nat} (h : 2 ^ zeros ∣ n)
    (hfinite : magnitudeOfRatio n 1 < infiniteMagnitude) :
    2 ^ zeros ∣ unitsOfMagnitude (magnitudeOfRatio n 1) := by
  rcases Nat.le_total zeros (bitLength n - 53) with hle | hle
  · rw [unitsOfMagnitude_magnitudeOfRatio rfl hfinite]
    exact (Nat.pow_dvd_pow 2 hle).mul_left _
  · rwa [unitsOfMagnitude_of_dvd ((Nat.pow_dvd_pow 2 hle).trans h) hfinite]

end Ratio

end Double

end Specimen
