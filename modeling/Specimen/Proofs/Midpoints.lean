import Mathlib.Tactic.Linarith
import Mathlib.Tactic.Positivity
import Specimen.Proofs.ExactValues

/-!
# The middle of two doubles

The middle of two doubles is the rounded sum of their rounded halves. Halving loses a digit only
where there are no shifts, and then a tie of one half and a tie of the other lie on the same side or
make up for each other; so the sum of two halves is exact enough that its rounding stays between the
two doubles, and is the double between them if there is just one. Both are shown for neighbours and
for the next but one, and by monotony for all.
-/

namespace Specimen

namespace Double

/-! ### Ratios in lowest terms -/

theorem roundHalfEven_mul_right {k : Nat} (hk : 0 < k) (n d : Nat) :
    roundHalfEven (n * k) (d * k) = roundHalfEven n d := by
  have htwice : 2 * (n % d * k) = 2 * (n % d) * k := (Nat.mul_assoc _ _ _).symm
  simp only [roundHalfEven, Nat.mul_div_mul_right n d hk, Nat.mul_mod_mul_right, htwice,
    Nat.mul_lt_mul_right hk]

theorem magnitudeOfRatio_mul {d : Nat} (hd : 0 < d) (n : Nat) :
    magnitudeOfRatio (n * d) d = magnitudeOfRatio n 1 := by
  have hround (shift : Nat) :
      roundHalfEven (n * d) (d * 2 ^ shift) = roundHalfEven n (1 * 2 ^ shift) := by
    rw [Nat.one_mul, Nat.mul_comm d, roundHalfEven_mul_right hd]
  rw [magnitudeOfRatio_eq rfl, magnitudeOfRatio_eq rfl, Nat.mul_div_cancel n hd, Nat.div_one,
    hround]

/-! ### Halves -/

theorem roundHalfEven_two (n : Nat) :
    roundHalfEven n 2 = (n + if n % 4 = 3 then 1 else 0) / 2 := by
  simp only [roundHalfEven]
  split_ifs <;> omega

/-- Half of an integer, to the nearest integer, a tie going to the even neighbour. -/
def halved (n : Int) : Int :=
  (n + if n % 4 = 3 then 1 else 0) / 2

theorem signed_roundHalfEven_two (n : Int) : signed (roundHalfEven · 2) n = halved n := by
  simp only [signed, roundHalfEven_two, halved]
  split_ifs <;> omega

theorem halved_mono {m n : Int} (h : m ≤ n) : halved m ≤ halved n := by
  simp only [halved]
  split_ifs <;> omega

/-- Half of a magnitude is half of its units: below the shifts a tie is rounded, and above them no
digit is lost. -/
theorem unitsOfMagnitude_half {magnitude : Nat} (h : magnitude ≤ infiniteMagnitude) :
    unitsOfMagnitude (magnitudeOfRatio (unitsOfMagnitude magnitude) 2) =
      roundHalfEven (unitsOfMagnitude magnitude) 2 := by
  obtain ⟨shift, count, rfl, hlt, hnormal⟩ := exists_shift magnitude
  rw [unitsOfMagnitude_shift hlt.le hnormal]
  cases shift with
  | zero =>
      rw [fractionCount_eq] at hlt
      have hround : roundHalfEven count 2 ≤ 2 ^ 52 := by
        rw [roundHalfEven_two]
        split_ifs <;> omega
      have hlength : bitLength (count / 2) - 53 = 0 := by
        rw [Nat.sub_eq_zero_iff_le, bitLength_le_iff]
        omega
      have hmagnitude : magnitudeOfRatio count 2 = 0 * fractionCount + roundHalfEven count 2 := by
        rw [magnitudeOfRatio_eq hlength, Nat.pow_zero, Nat.mul_one]
        exact Nat.min_eq_left (by unfold infiniteMagnitude; omega)
      have hcount : roundHalfEven count 2 ≤ 2 * fractionCount := by
        rw [fractionCount_eq]
        omega
      rw [Nat.pow_zero, Nat.mul_one, hmagnitude, unitsOfMagnitude_shift hcount (.inl rfl),
        Nat.pow_zero, Nat.mul_one]
  | succ shift =>
      have hlower : fractionCount ≤ count := hnormal.resolve_left (Nat.succ_ne_zero shift)
      have hle : shift * fractionCount + count ≤ infiniteMagnitude := by
        rw [Nat.succ_mul] at h
        omega
      have hunits : unitsOfMagnitude (shift * fractionCount + count) = count * 2 ^ shift :=
        unitsOfMagnitude_shift hlt.le (.inr hlower)
      rw [Nat.pow_succ, ← Nat.mul_assoc, magnitudeOfRatio_mul Nat.two_pos, ← hunits,
        magnitudeOfRatio_unitsOfMagnitude hle, roundHalfEven_mul Nat.two_pos]

/-! ### Sums of halves -/

section Halved

variable {m n : Int}

theorem halved_two_mul (n : Int) : halved (2 * n) = n := by
  simp only [halved]
  split_ifs <;> omega

theorem halved_neg (n : Int) : halved (-n) = -halved n := by
  simp only [halved]
  split_ifs <;> omega

theorem halved_succ (count : Int) (shift : Nat) :
    halved (count * 2 ^ (shift + 1)) = count * 2 ^ shift := by
  rw [Int.pow_succ, ← Int.mul_assoc, Int.mul_comm _ 2, halved_two_mul]

/-- The halves of two counts with an odd sum make up one of the two whole numbers beside half of it,
wherever the digits of the counts begin. -/
theorem halved_add_halved_odd {count other middle : Int} (h : count + other = 2 * middle + 1)
    (shift : Nat) :
    middle * 2 ^ shift ≤ halved (count * 2 ^ shift) + halved (other * 2 ^ shift) ∧
      halved (count * 2 ^ shift) + halved (other * 2 ^ shift) ≤ (middle + 1) * 2 ^ shift := by
  cases shift with
  | zero =>
      simp only [halved, pow_zero, mul_one]
      split_ifs <;> omega
  | succ shift =>
      have hpos : (0 : Int) < 2 ^ shift := by positivity
      have hsum : count * 2 ^ shift + other * 2 ^ shift = (2 * middle + 1) * 2 ^ shift := by
        rw [← add_mul, h]
      rw [halved_succ, halved_succ, pow_succ]
      constructor <;> linarith

theorem halved_add_halved_two (count : Int) (shift : Nat) :
    halved (count * 2 ^ shift) + halved ((count + 2) * 2 ^ shift) = (count + 1) * 2 ^ shift := by
  cases shift with
  | zero =>
      simp only [halved, pow_zero, mul_one]
      split_ifs <;> omega
  | succ shift =>
      rw [halved_succ, halved_succ, pow_succ]
      ring

end Halved

/-! ### Neighbours -/

/-- The units of the double at a place. -/
def unitsAt (place : Int) : Int :=
  signed unitsOfMagnitude place

theorem unitsAt_natCast (magnitude : Nat) : unitsAt magnitude = unitsOfMagnitude magnitude := by
  rw [unitsAt, signed_of_nonneg (Int.natCast_nonneg _), Int.natAbs_natCast]

theorem unitsAt_neg (place : Int) : unitsAt (-place) = -unitsAt place :=
  signed_neg (by decide) place

theorem rankOfUnits_neg (units : Int) : rankOfUnits (-units) = -rankOfUnits units :=
  signed_neg (by decide) units

theorem unitsAt_mono {place other : Int} (h : place ≤ other) : unitsAt place ≤ unitsAt other :=
  signed_le strictMono_unitsOfMagnitude.monotone h

/-- A magnitude and the two after it are counts of the same power of two, unless the last of them
begins with the next power. -/
theorem exists_units_next (magnitude : Nat) : ∃ count shift,
    unitsOfMagnitude magnitude = count * 2 ^ shift ∧
    unitsOfMagnitude (magnitude + 1) = (count + 1) * 2 ^ shift ∧
    (unitsOfMagnitude (magnitude + 2) = (count + 2) * 2 ^ shift ∨
      count + 1 = 2 * fractionCount ∧ magnitude + 1 = shift * fractionCount + 2 * fractionCount ∧
        unitsOfMagnitude (magnitude + 2) = (count + 3) * 2 ^ shift) := by
  obtain ⟨shift, count, rfl, hlt, hnormal⟩ := exists_shift magnitude
  have hnormal₁ : shift = 0 ∨ fractionCount ≤ count + 1 := hnormal.imp_right (by omega)
  have hnormal₂ : shift = 0 ∨ fractionCount ≤ count + 2 := hnormal.imp_right (by omega)
  refine ⟨count, shift, unitsOfMagnitude_shift hlt.le hnormal, ?_, ?_⟩
  · rw [Nat.add_assoc, unitsOfMagnitude_shift hlt hnormal₁]
  · rcases Nat.lt_or_ge (count + 1) (2 * fractionCount) with hinside | hend
    · left
      rw [Nat.add_assoc, unitsOfMagnitude_shift hinside hnormal₂]
    · right
      have hcount : count + 1 = 2 * fractionCount := by omega
      have hnext : shift * fractionCount + count + 2 =
          (shift + 1) * fractionCount + (fractionCount + 1) := by
        rw [Nat.succ_mul]
        omega
      have hsmall : fractionCount + 1 ≤ 2 * fractionCount := by decide
      refine ⟨hcount, by omega, ?_⟩
      rw [hnext, unitsOfMagnitude_shift hsmall (.inr (Nat.le_succ _)), Nat.pow_succ,
        Nat.mul_comm _ 2, ← Nat.mul_assoc]
      congr 1
      omega

/-- Half a step after the last count of a power of two, a tie, is rounded down to it. -/
theorem magnitudeOfRatio_tie {shift : Nat}
    (h : shift * fractionCount + 2 * fractionCount ≤ infiniteMagnitude) :
    magnitudeOfRatio ((2 * fractionCount + 1) * 2 ^ shift) 1 =
      shift * fractionCount + 2 * fractionCount := by
  have hlength : bitLength ((2 * fractionCount + 1) * 2 ^ shift / 1) - 53 = shift + 1 := by
    have hle : bitLength ((2 * fractionCount + 1) * 2 ^ shift) ≤ 54 + shift := by
      rw [bitLength_le_iff, Nat.pow_add]
      exact Nat.mul_lt_mul_of_pos_right (by decide) (Nat.two_pow_pos shift)
    have hgt : ¬ bitLength ((2 * fractionCount + 1) * 2 ^ shift) ≤ 53 + shift := by
      rw [bitLength_le_iff, Nat.pow_add, Nat.not_lt]
      exact Nat.mul_le_mul_right _ (by decide)
    rw [Nat.div_one]
    omega
  have hround : roundHalfEven ((2 * fractionCount + 1) * 2 ^ shift) (1 * 2 ^ (shift + 1)) =
      fractionCount := by
    rw [Nat.one_mul, Nat.pow_succ, Nat.mul_comm _ 2,
      roundHalfEven_mul_right (Nat.two_pow_pos shift), roundHalfEven_two]
    decide
  rw [magnitudeOfRatio_eq hlength, hround, Nat.succ_mul, Nat.min_eq_left (by omega)]
  omega

theorem rankOfUnits_natCast (n : Nat) : rankOfUnits n = magnitudeOfRatio n 1 := by
  rw [rankOfUnits, signed_of_nonneg (Int.natCast_nonneg n), Int.natAbs_natCast]

/-- The halves of two doubles with one between them add up to that one. -/
theorem rankOfUnits_halves_natCast {magnitude : Nat} (h : magnitude + 2 ≤ infiniteMagnitude) :
    rankOfUnits (halved (unitsOfMagnitude magnitude) + halved (unitsOfMagnitude (magnitude + 2))) =
      magnitude + 1 := by
  obtain ⟨count, shift, hunits, hunits₁, hunits₂⟩ := exists_units_next magnitude
  have hmiddle : rankOfUnits (((count + 1) * 2 ^ shift : Nat) : Int) = magnitude + 1 := by
    rw [rankOfUnits_natCast, ← hunits₁, magnitudeOfRatio_unitsOfMagnitude (by omega)]
    rfl
  rw [hunits]
  rcases hunits₂ with hsame | ⟨hcount, hend, hnext⟩
  · rw [hsame, ← hmiddle]
    exact_mod_cast congrArg rankOfUnits (halved_add_halved_two count shift)
  · -- The exact middle lies above the middle double, by no more than a tie.
    have hodd : (count : Int) + (count + 3) = 2 * (count + 1) + 1 := by ring
    have hbounds := halved_add_halved_odd hodd shift
    have htie : rankOfUnits (((count + 2) * 2 ^ shift : Nat) : Int) = magnitude + 1 := by
      have hcount' : count + 2 = 2 * fractionCount + 1 := by omega
      rw [rankOfUnits_natCast, hcount', magnitudeOfRatio_tie (by omega), ← hend]
      rfl
    rw [hnext]
    apply le_antisymm
    · rw [← htie]
      exact rankOfUnits_mono (by exact_mod_cast hbounds.2)
    · rw [← hmiddle]
      exact rankOfUnits_mono (by exact_mod_cast hbounds.1)

theorem halves_natCast_mem (magnitude : Nat) :
    (unitsOfMagnitude magnitude : Int) ≤
        halved (unitsOfMagnitude magnitude) + halved (unitsOfMagnitude (magnitude + 1)) ∧
      halved (unitsOfMagnitude magnitude) + halved (unitsOfMagnitude (magnitude + 1)) ≤
        unitsOfMagnitude (magnitude + 1) := by
  obtain ⟨count, shift, hunits, hunits₁, -⟩ := exists_units_next magnitude
  rw [hunits, hunits₁]
  have hodd : (count : Int) + (count + 1) = 2 * count + 1 := by ring
  exact_mod_cast halved_add_halved_odd hodd shift

/-! ### Middles by place -/

/-- The place of the sum of the halves of the doubles at two places. -/
def middlePlace (low high : Int) : Int :=
  rankOfUnits (halved (unitsAt low) + halved (unitsAt high))

section Places

variable {low high other : Int}

theorem middlePlace_neg (low high : Int) : middlePlace (-low) (-high) = -middlePlace high low := by
  rw [middlePlace, middlePlace, ← rankOfUnits_neg, unitsAt_neg, unitsAt_neg, halved_neg, halved_neg]
  congr 1
  omega

theorem middlePlace_mono_right (low : Int) (h : high ≤ other) :
    middlePlace low high ≤ middlePlace low other :=
  rankOfUnits_mono (Int.add_le_add_left (halved_mono (unitsAt_mono h)) _)

theorem middlePlace_mono_left (high : Int) (h : low ≤ other) :
    middlePlace low high ≤ middlePlace other high :=
  rankOfUnits_mono (Int.add_le_add_right (halved_mono (unitsAt_mono h)) _)

/-- The middle of two places with one between them is that one. -/
theorem middlePlace_add_two (hlow : low.natAbs ≤ infiniteMagnitude)
    (hhigh : (low + 2).natAbs ≤ infiniteMagnitude) : middlePlace low (low + 2) = low + 1 := by
  have hnat (magnitude : Nat) (h : magnitude + 2 ≤ infiniteMagnitude) :
      middlePlace magnitude (magnitude + 2 : Nat) = magnitude + 1 := by
    rw [middlePlace, unitsAt_natCast, unitsAt_natCast]
    exact rankOfUnits_halves_natCast h
  rcases Int.lt_trichotomy low (-1) with hbelow | rfl | habove
  · obtain ⟨magnitude, rfl⟩ : ∃ magnitude : Nat, low = -((magnitude + 2 : Nat) : Int) :=
      ⟨(-low - 2).toNat, by omega⟩
    have hopposite : -((magnitude + 2 : Nat) : Int) + 2 = -(magnitude : Int) := by omega
    rw [hopposite, middlePlace_neg, hnat magnitude (by omega)]
    omega
  · -- The middle of two opposite places is its own opposite.
    have hself := middlePlace_neg 1 (-1)
    have hsum : (-1 : Int) + 2 = 1 := rfl
    rw [Int.neg_neg] at hself
    rw [hsum]
    omega
  · obtain ⟨magnitude, rfl⟩ := Int.eq_ofNat_of_zero_le (show 0 ≤ low by omega)
    exact hnat magnitude (by omega)

/-- The middle of two neighbours is one of them. -/
theorem middlePlace_add_one (hlow : low.natAbs ≤ infiniteMagnitude)
    (hhigh : (low + 1).natAbs ≤ infiniteMagnitude) :
    low ≤ middlePlace low (low + 1) ∧ middlePlace low (low + 1) ≤ low + 1 := by
  have hnat (magnitude : Nat) (h : magnitude + 1 ≤ infiniteMagnitude) :
      (magnitude : Int) ≤ middlePlace magnitude (magnitude + 1 : Nat) ∧
        middlePlace magnitude (magnitude + 1 : Nat) ≤ (magnitude + 1 : Nat) := by
    obtain ⟨hbelow, habove⟩ := halves_natCast_mem magnitude
    rw [middlePlace, unitsAt_natCast, unitsAt_natCast]
    constructor
    · have hrank := rankOfUnits_mono hbelow
      rwa [rankOfUnits_natCast, magnitudeOfRatio_unitsOfMagnitude (by omega)] at hrank
    · have hrank := rankOfUnits_mono habove
      rwa [rankOfUnits_natCast, magnitudeOfRatio_unitsOfMagnitude h] at hrank
  rcases Int.lt_or_le low 0 with hnegative | hnonneg
  · obtain ⟨magnitude, rfl⟩ : ∃ magnitude : Nat, low = -((magnitude + 1 : Nat) : Int) :=
      ⟨(-low - 1).toNat, by omega⟩
    have hopposite : -((magnitude + 1 : Nat) : Int) + 1 = -(magnitude : Int) := by omega
    have hbounds := hnat magnitude (by omega)
    rw [hopposite, middlePlace_neg]
    omega
  · obtain ⟨magnitude, rfl⟩ := Int.eq_ofNat_of_zero_le hnonneg
    exact hnat magnitude (by omega)

/-- The middle of two places lies between them, and off both if another place does. -/
theorem middlePlace_mem (hlow : low.natAbs ≤ infiniteMagnitude)
    (hhigh : high.natAbs ≤ infiniteMagnitude) (h : low < high) :
    low ≤ middlePlace low high ∧ middlePlace low high ≤ high := by
  have hbelow := middlePlace_add_one hlow (by omega)
  have habove : high - 1 ≤ middlePlace (high - 1) (high - 1 + 1) ∧
      middlePlace (high - 1) (high - 1 + 1) ≤ high - 1 + 1 :=
    middlePlace_add_one (by omega) (by omega)
  rw [Int.sub_add_cancel] at habove
  have hright := middlePlace_mono_right low (show low + 1 ≤ high by omega)
  have hleft := middlePlace_mono_left high (show low ≤ high - 1 by omega)
  omega

theorem middlePlace_between (hlow : low.natAbs ≤ infiniteMagnitude)
    (hhigh : high.natAbs ≤ infiniteMagnitude) (h : low + 1 < high) :
    low < middlePlace low high ∧ middlePlace low high < high := by
  have hbelow := middlePlace_add_two hlow (by omega)
  have habove : middlePlace (high - 2) (high - 2 + 2) = high - 2 + 1 :=
    middlePlace_add_two (by omega) (by omega)
  rw [Int.sub_add_cancel] at habove
  have hright := middlePlace_mono_right low (show low + 2 ≤ high by omega)
  have hleft := middlePlace_mono_left high (show low ≤ high - 2 by omega)
  omega

end Places

/-! ### Middles of doubles -/

section Doubles

variable {x y z : Double}

theorem rank_half (hx : x.isFinite = true) :
    x.half.rank = signed (magnitudeOfRatio · 2) x.units := by
  have hsize : magnitudeOfRatio (unitsOfMagnitude x.magnitude) 2 < signWeight :=
    (magnitudeOfRatio_le _ _).trans_lt (by decide)
  rw [half, if_pos hx, ofRatio, rank_ofMagnitude hsize, units]
  cases x.negative with
  | false => rw [if_neg Bool.false_ne_true, if_neg Bool.false_ne_true,
      signed_of_nonneg (Int.natCast_nonneg _), Int.natAbs_natCast]
  | true => rw [if_pos rfl, if_pos rfl, signed_neg_cast (by decide)]

theorem units_half (hx : x.isFinite = true) : x.half.units = halved x.units := by
  have hmagnitude : x.magnitude ≤ infiniteMagnitude := by
    rw [isFinite, decide_eq_true_iff] at hx
    exact hx.le
  rw [units_eq_signed, rank_half hx, ← signed_roundHalfEven_two, units]
  split
  · rw [signed_neg_cast (by decide), signed_neg_cast (by decide), signed_neg_cast (by decide),
      unitsOfMagnitude_half hmagnitude]
  · rw [signed_of_nonneg (Int.natCast_nonneg _), signed_of_nonneg (Int.natCast_nonneg _),
      signed_of_nonneg (Int.natCast_nonneg _), Int.natAbs_natCast, Int.natAbs_natCast,
      unitsOfMagnitude_half hmagnitude]

theorem isFinite_half (hx : x.isFinite = true) : x.half.isFinite = true := by
  have hhalf : magnitudeOfRatio x.units.natAbs 2 ≤ magnitudeOfRatio (x.units.natAbs * 2) 2 :=
    magnitudeOfRatio_mono Nat.two_pos (Nat.le_mul_of_pos_right _ Nat.two_pos)
  rw [magnitudeOfRatio_mul Nat.two_pos, ← natAbs_rankOfUnits, rankOfUnits_units hx] at hhalf
  rw [isFinite_iff, rank_half hx, natAbs_signed]
  exact hhalf.trans_lt (isFinite_iff.mp hx)

theorem rank_add_half (hx : x.isFinite = true) (hy : y.isFinite = true) :
    (x.half.add y.half).rank = middlePlace x.rank y.rank := by
  rw [rank_add (isFinite_half hx) (isFinite_half hy), units_half hx, units_half hy, middlePlace,
    unitsAt, unitsAt, ← units_eq_signed, ← units_eq_signed]

/-- What lies between two finite doubles is finite. -/
theorem isFinite_of_rank_mem (hx : x.isFinite = true) (hz : z.isFinite = true)
    (hlow : x.rank ≤ y.rank) (hhigh : y.rank ≤ z.rank) : y.isFinite = true := by
  rw [isFinite_iff] at *
  omega

/-- There is a double between two others if their places are no neighbours. -/
theorem exists_between_iff (hx : x.isFinite = true) (hz : z.isFinite = true) :
    (∃ y : Double, y.isFinite = true ∧ x.rank < y.rank ∧ y.rank < z.rank) ↔
      x.rank + 1 < z.rank := by
  constructor
  · rintro ⟨y, -, hlow, hhigh⟩
    omega
  · intro h
    rw [isFinite_iff] at hx hz
    have hsize : (x.rank + 1).natAbs < infiniteMagnitude := by omega
    have hrank : (ofMagnitude (decide (x.rank + 1 < 0)) (x.rank + 1).natAbs).rank = x.rank + 1 := by
      rw [rank_ofMagnitude (hsize.trans (by decide))]
      split_ifs with hsign <;> simp only [decide_eq_true_eq] at hsign <;> omega
    refine ⟨_, ?_, by rw [hrank]; omega, by rw [hrank]; exact h⟩
    rw [isFinite_iff, hrank]
    exact hsize

end Doubles

end Double

end Specimen
