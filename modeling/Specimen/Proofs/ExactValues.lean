import Mathlib.Algebra.Order.Ring.Rat
import Specimen.Proofs.Rounding

/-!
# What doubles denote

A finite double denotes a rational number. Its place in the order of doubles and its count of units
determine each other, so doubles are compared as the numbers they denote, and an operation that rounds
puts its result at the place of the exact one. Whole numbers of 64 bits are rounded to whole numbers,
in order, and those up to `2 ^ 53` are kept.
-/

namespace Specimen

namespace Double

/-! ### Functions of a sign and a size -/

/-- A function of counts, carried over to integers with their signs. -/
def signed (f : Nat → Nat) (n : Int) : Int :=
  if n < 0 then -(f n.natAbs : Int) else f n.natAbs

section Signed

variable {f g : Nat → Nat} {m n : Int}

theorem signed_of_neg (h : n < 0) : signed f n = -(f n.natAbs : Int) :=
  if_pos h

theorem signed_of_nonneg (h : 0 ≤ n) : signed f n = f n.natAbs :=
  if_neg (Int.not_lt.mpr h)

theorem signed_neg_cast (hzero : f 0 = 0) (k : Nat) : signed f (-k) = -(f k : Int) := by
  rcases Nat.eq_zero_or_pos k with rfl | hpos
  · simp [signed, hzero]
  · rw [signed_of_neg (by omega), Int.natAbs_neg, Int.natAbs_natCast]

theorem signed_neg (hzero : f 0 = 0) (n : Int) : signed f (-n) = -signed f n := by
  rcases Int.lt_or_le n 0 with hn | hn
  · rw [signed_of_nonneg (by omega), signed_of_neg hn, Int.natAbs_neg, Int.neg_neg]
  · obtain ⟨k, rfl⟩ := Int.eq_ofNat_of_zero_le hn
    rw [signed_neg_cast hzero, signed_of_nonneg hn, Int.natAbs_natCast]

theorem natAbs_signed (n : Int) : (signed f n).natAbs = f n.natAbs := by
  rw [signed]
  split <;> simp

theorem signed_le (hf : Monotone f) (h : m ≤ n) : signed f m ≤ signed f n := by
  rcases Int.lt_or_le n 0 with hn | hn
  · have hle : f n.natAbs ≤ f m.natAbs := hf (by omega)
    rw [signed_of_neg hn, signed_of_neg (by omega)]
    omega
  · rw [signed_of_nonneg hn]
    rcases Int.lt_or_le m 0 with hm | hm
    · rw [signed_of_neg hm]
      omega
    · have hle : f m.natAbs ≤ f n.natAbs := hf (by omega)
      rw [signed_of_nonneg hm]
      omega

theorem signed_lt (hf : StrictMono f) (h : m < n) : signed f m < signed f n := by
  rcases Int.lt_or_le n 0 with hn | hn
  · have hlt : f n.natAbs < f m.natAbs := hf (by omega)
    rw [signed_of_neg hn, signed_of_neg (by omega)]
    omega
  · rw [signed_of_nonneg hn]
    rcases Int.lt_or_le m 0 with hm | hm
    · have hlt : f 0 < f m.natAbs := hf (by omega)
      rw [signed_of_neg hm]
      omega
    · have hlt : f m.natAbs < f n.natAbs := hf (by omega)
      rw [signed_of_nonneg hm]
      omega

theorem signed_le_iff (hf : StrictMono f) : signed f m ≤ signed f n ↔ m ≤ n := by
  refine ⟨fun h => Int.not_lt.mp fun hlt => ?_, signed_le hf.monotone⟩
  exact Int.not_lt.mpr h (signed_lt hf hlt)

theorem signed_lt_iff (hf : StrictMono f) : signed f m < signed f n ↔ m < n := by
  rw [← Int.not_le, ← Int.not_le, signed_le_iff hf]

theorem signed_signed (hzero : f 0 = 0) (h : f (g n.natAbs) = n.natAbs) :
    signed f (signed g n) = n := by
  rcases Int.lt_or_le n 0 with hn | hn
  · rw [signed_of_neg hn, signed_neg_cast hzero, h]
    omega
  · rw [signed_of_nonneg hn, signed_of_nonneg (Int.natCast_nonneg _), Int.natAbs_natCast, h]
    omega

end Signed

/-! ### Places and units -/

/-- The place of the double that a count of units is rounded to. -/
def rankOfUnits (units : Int) : Int :=
  signed (magnitudeOfRatio · 1) units

theorem rankOfUnits_mono {m n : Int} (h : m ≤ n) : rankOfUnits m ≤ rankOfUnits n :=
  signed_le (fun _ _ hle => magnitudeOfRatio_mono Nat.one_pos hle) h

theorem rankOfUnits_whole_mono {m n : Int} (h : m ≤ n) :
    rankOfUnits (m * one) ≤ rankOfUnits (n * one) :=
  rankOfUnits_mono (Int.mul_le_mul_of_nonneg_right h (Int.natCast_nonneg _))

theorem natAbs_rankOfUnits (units : Int) :
    (rankOfUnits units).natAbs = magnitudeOfRatio units.natAbs 1 :=
  natAbs_signed units

variable {x y : Double}

theorem natAbs_rank (x : Double) : x.rank.natAbs = x.magnitude := by
  rw [rank]
  split <;> simp

theorem isFinite_iff : x.isFinite = true ↔ x.rank.natAbs < infiniteMagnitude := by
  rw [isFinite, decide_eq_true_iff, natAbs_rank]

theorem isNaN_of_isFinite (h : x.isFinite = true) : x.isNaN = false := by
  rw [isFinite, decide_eq_true_iff] at h
  exact decide_eq_false (Nat.not_lt.mpr h.le)

theorem units_eq_signed (x : Double) : x.units = signed unitsOfMagnitude x.rank := by
  rw [units, rank]
  split
  · exact (signed_neg_cast rfl _).symm
  · rw [signed_of_nonneg (Int.natCast_nonneg _), Int.natAbs_natCast]

theorem units_le_iff : x.units ≤ y.units ↔ x.rank ≤ y.rank := by
  rw [units_eq_signed, units_eq_signed]
  exact signed_le_iff strictMono_unitsOfMagnitude

theorem units_lt_iff : x.units < y.units ↔ x.rank < y.rank := by
  rw [units_eq_signed, units_eq_signed]
  exact signed_lt_iff strictMono_unitsOfMagnitude

/-- A finite double is what its own units are rounded to. -/
theorem rankOfUnits_units (h : x.isFinite = true) : rankOfUnits x.units = x.rank := by
  rw [units_eq_signed]
  exact signed_signed (by decide) (magnitudeOfRatio_unitsOfMagnitude (isFinite_iff.mp h).le)

theorem le_iff (hx : x.isFinite = true) (hy : y.isFinite = true) :
    x.le y = true ↔ x.units ≤ y.units := by
  simp [le, isNaN_of_isFinite hx, isNaN_of_isFinite hy, units_le_iff]

theorem lt_iff (hx : x.isFinite = true) (hy : y.isFinite = true) :
    x.lt y = true ↔ x.units < y.units := by
  simp [lt, isNaN_of_isFinite hx, isNaN_of_isFinite hy, units_lt_iff]

/-! ### Words -/

section Words

variable {negative : Bool} {magnitude : Nat}

theorem toNat_bits_ofMagnitude (h : magnitude < signWeight) :
    (ofMagnitude negative magnitude).bits.toNat =
      if negative then signWeight + magnitude else magnitude := by
  have hsize : signWeight + signWeight = 2 ^ 64 := by decide
  rw [ofMagnitude, UInt64.toNat_ofNat']
  apply Nat.mod_eq_of_lt
  split <;> omega

theorem negative_ofMagnitude (h : magnitude < signWeight) :
    (ofMagnitude negative magnitude).negative = negative := by
  rw [Double.negative, toNat_bits_ofMagnitude h]
  cases negative with
  | false => exact decide_eq_false (Nat.not_le.mpr h)
  | true => exact decide_eq_true (Nat.le_add_right _ _)

theorem magnitude_ofMagnitude (h : magnitude < signWeight) :
    (ofMagnitude negative magnitude).magnitude = magnitude := by
  rw [Double.magnitude, toNat_bits_ofMagnitude h]
  cases negative with
  | false => exact Nat.mod_eq_of_lt h
  | true => exact (Nat.add_mod_left _ _).trans (Nat.mod_eq_of_lt h)

theorem rank_ofMagnitude (h : magnitude < signWeight) :
    (ofMagnitude negative magnitude).rank = if negative then -(magnitude : Int) else magnitude := by
  rw [rank, negative_ofMagnitude h, magnitude_ofMagnitude h]

end Words

/-! ### Operations -/

theorem one_eq : one = 2 ^ unitExponent := by
  unfold one
  generalize unitExponent = exponent
  exact Nat.pow_eq

theorem one_pos : (0 : Int) < one := by
  rw [one_eq]
  exact_mod_cast Nat.two_pow_pos unitExponent

theorem rank_ofUnits (zeroNegative : Bool) (u : Int) :
    (ofUnits zeroNegative u).rank = rankOfUnits u := by
  have hsize : magnitudeOfRatio u.natAbs 1 < signWeight :=
    (magnitudeOfRatio_le _ _).trans_lt (by decide)
  rw [ofUnits]
  split
  next hzero =>
    subst hzero
    cases zeroNegative <;> decide
  next =>
    rw [ofRatio, rank_ofMagnitude hsize, rankOfUnits, signed]
    simp only [decide_eq_true_eq]

theorem rank_ofInt (n : Int) : (ofInt n).rank = rankOfUnits (n * one) := by
  have hsize : magnitudeOfRatio (n.natAbs * one) 1 < signWeight :=
    (magnitudeOfRatio_le _ _).trans_lt (by decide)
  have hsign : n * one < 0 ↔ n < 0 := by
    constructor
    · intro h
      exact Int.not_le.mp fun hn => Int.not_lt.mpr (Int.mul_nonneg hn one_pos.le) h
    · exact fun h => Int.mul_neg_of_neg_of_pos h one_pos
  rw [ofInt, ofRatio, rank_ofMagnitude hsize, rankOfUnits, signed, Int.natAbs_mul,
    Int.natAbs_natCast]
  simp only [decide_eq_true_eq, hsign]

theorem rank_neg (x : Double) : x.neg.rank = -x.rank := by
  have hsize : x.magnitude < signWeight := Nat.mod_lt _ (by decide)
  rw [neg, rank_ofMagnitude hsize, rank]
  cases x.negative <;> simp

theorem rank_add (hx : x.isFinite = true) (hy : y.isFinite = true) :
    (x.add y).rank = rankOfUnits (x.units + y.units) := by
  simp only [add, isNaN_of_isFinite hx, isNaN_of_isFinite hy, Bool.or_self, Bool.false_eq_true,
    if_false, hx, hy]
  exact rank_ofUnits _ _

theorem rank_floor (hx : x.isFinite = true) : x.floor.rank = rankOfUnits (x.floorInt * one) := by
  rw [floor, if_pos hx, rank_ofUnits]

theorem rank_ceil (hx : x.isFinite = true) : x.ceil.rank = rankOfUnits (x.ceilInt * one) := by
  rw [ceil, if_pos hx, rank_ofUnits]

/-! ### Whole numbers -/

/-- The number that a finite double stands for. -/
def value (x : Double) : ℚ :=
  x.units / one

/-- A finite double stands for a whole number. -/
structure Denotes (x : Double) (n : Int) : Prop where
  finite : x.isFinite = true
  units : x.units = n * one

theorem isIntegral_iff : x.isIntegral = true ↔ ∃ n, x.Denotes n := by
  rw [isIntegral, Bool.and_eq_true, decide_eq_true_iff]
  constructor
  · rintro ⟨hfinite, hunits⟩
    exact ⟨x.units / one, hfinite, (Int.ediv_mul_cancel (Int.dvd_of_emod_eq_zero hunits)).symm⟩
  · rintro ⟨n, hfinite, hunits⟩
    exact ⟨hfinite, hunits ▸ Int.mul_emod_left n one⟩

namespace Denotes

variable {m n : Int}

theorem value (h : x.Denotes n) : x.value = n := by
  have hone : (one : ℚ) ≠ 0 := by exact_mod_cast one_pos.ne'
  rw [Double.value, h.units, Int.cast_mul, Int.cast_natCast]
  exact mul_div_cancel_right₀ _ hone

theorem le_maxInt64 (h : x.Denotes n) (hlt : x.value < 2 ^ 63) : n ≤ maxInt64 := by
  rw [h.value] at hlt
  have hcast : n < 2 ^ 63 := by exact_mod_cast hlt
  unfold maxInt64
  omega

theorem rank (h : x.Denotes n) : x.rank = rankOfUnits (n * one) := by
  rw [← h.units, rankOfUnits_units h.finite]

theorem of_rank_eq (h : x.Denotes n) (hrank : y.rank = x.rank) : y.Denotes n where
  finite := by
    rw [isFinite_iff, hrank, ← isFinite_iff]
    exact h.finite
  units := by rw [units_eq_signed, hrank, ← units_eq_signed, h.units]

theorem le_iff (hx : x.Denotes m) (hy : y.Denotes n) : x.le y = true ↔ m ≤ n := by
  rw [Double.le_iff hx.finite hy.finite, hx.units, hy.units]
  exact Int.mul_le_mul_right one_pos

theorem lt_iff (hx : x.Denotes m) (hy : y.Denotes n) : x.lt y = true ↔ m < n := by
  rw [Double.lt_iff hx.finite hy.finite, hx.units, hy.units]
  exact Int.mul_lt_mul_right one_pos

theorem equal_iff (hx : x.Denotes m) (hy : y.Denotes n) : x.equal y = true ↔ m = n := by
  have hle := hx.le_iff hy
  have hge := hy.le_iff hx
  simp only [le, equal, isNaN_of_isFinite hx.finite, isNaN_of_isFinite hy.finite, Bool.not_false,
    Bool.and_self, Bool.true_and, decide_eq_true_eq] at hle hge ⊢
  omega

theorem max_eq (hx : x.Denotes m) (hy : y.Denotes n) : x.max y = if n < m then x else y := by
  simp only [max, isNaN_of_isFinite hy.finite, Bool.false_or, hy.lt_iff hx]

theorem min_eq (hx : x.Denotes m) (hy : y.Denotes n) : x.min y = if m < n then x else y := by
  simp only [min, isNaN_of_isFinite hy.finite, Bool.false_or, hx.lt_iff hy]

theorem floorInt (h : x.Denotes n) : x.floorInt = n := by
  rw [Double.floorInt, h.units, Int.mul_ediv_cancel _ one_pos.ne']

theorem ceilInt (h : x.Denotes n) : x.ceilInt = n := by
  rw [Double.ceilInt, h.units, ← Int.neg_mul, Int.mul_ediv_cancel _ one_pos.ne', Int.neg_neg]

theorem floor (h : x.Denotes n) : x.floor.Denotes n :=
  h.of_rank_eq (by rw [rank_floor h.finite, h.floorInt, h.rank])

theorem ceil (h : x.Denotes n) : x.ceil.Denotes n :=
  h.of_rank_eq (by rw [rank_ceil h.finite, h.ceilInt, h.rank])

theorem neg (h : x.Denotes n) : x.neg.Denotes (-n) where
  finite := by
    rw [isFinite_iff, rank_neg, Int.natAbs_neg, ← isFinite_iff]
    exact h.finite
  units := by rw [units_eq_signed, rank_neg, signed_neg rfl, ← units_eq_signed, h.units, Int.neg_mul]

theorem rank_add (hx : x.Denotes m) (hy : y.Denotes n) :
    (x.add y).rank = rankOfUnits ((m + n) * one) := by
  rw [Double.rank_add hx.finite hy.finite, hx.units, hy.units, Int.add_mul]

theorem toInt64 (h : x.Denotes n) :
    x.toInt64 = if n < minInt64 then minInt64 else if maxInt64 < n then maxInt64 else n := by
  rw [Double.toInt64, isNaN_of_isFinite h.finite, if_neg Bool.false_ne_true, if_pos h.finite, h.units,
    Int.mul_tdiv_cancel _ one_pos.ne']

end Denotes

section Rounded

variable {m n : Int}

theorem magnitudeOfRatio_lt_of_le (h : n.natAbs ≤ 2 ^ 64) :
    magnitudeOfRatio (n * one).natAbs 1 < infiniteMagnitude := by
  have hlarge : magnitudeOfRatio (2 ^ 64 * one) 1 < infiniteMagnitude := by decide +kernel
  rw [Int.natAbs_mul, Int.natAbs_natCast]
  exact (magnitudeOfRatio_mono Nat.one_pos (Nat.mul_le_mul_right one h)).trans_lt hlarge

theorem isFinite_of_rank (hx : x.rank = rankOfUnits (n * one)) (h : n.natAbs ≤ 2 ^ 64) :
    x.isFinite = true := by
  rw [isFinite_iff, hx, natAbs_rankOfUnits]
  exact magnitudeOfRatio_lt_of_le h

/-- A whole number is rounded to a whole number. -/
theorem exists_denotes_of_rank (hx : x.rank = rankOfUnits (n * one)) (h : n.natAbs ≤ 2 ^ 64) :
    ∃ k, x.Denotes k := by
  have hdvd : one ∣ x.units.natAbs := by
    rw [units_eq_signed, natAbs_signed, hx, natAbs_rankOfUnits, one_eq]
    refine two_pow_dvd_unitsOfMagnitude ?_ (one_eq ▸ magnitudeOfRatio_lt_of_le h)
    rw [Int.natAbs_mul]
    exact Nat.dvd_mul_left _ _
  obtain ⟨k, hk⟩ := Int.natCast_dvd.mpr hdvd
  exact ⟨k, isFinite_of_rank hx h, by rw [hk, Int.mul_comm]⟩

/-- A whole number of at most 53 binary digits is kept. -/
theorem denotes_of_rank (hx : x.rank = rankOfUnits (n * one)) (h : n.natAbs ≤ 2 ^ 53) :
    x.Denotes n := by
  have hfinite := magnitudeOfRatio_lt_of_le (h.trans (by decide))
  have hkept : unitsOfMagnitude (magnitudeOfRatio (n * one).natAbs 1) = (n * one).natAbs := by
    refine unitsOfMagnitude_of_dvd ?_ hfinite
    rw [Int.natAbs_mul, Int.natAbs_natCast, one_eq]
    exact two_pow_dvd_of_le h unitExponent
  refine ⟨isFinite_of_rank hx (h.trans (by decide)), ?_⟩
  rw [units_eq_signed, hx]
  exact @signed_signed unitsOfMagnitude (magnitudeOfRatio · 1) _ rfl hkept

theorem denotes_ofInt_of_le (h : n.natAbs ≤ 2 ^ 53) : (ofInt n).Denotes n :=
  denotes_of_rank (rank_ofInt n) h

/-- The whole number that a whole number is read as. -/
def nearest (n : Int) : Int :=
  (ofInt n).floorInt

theorem denotes_nearest (h : n.natAbs ≤ 2 ^ 64) : (ofInt n).Denotes (nearest n) := by
  obtain ⟨k, hk⟩ := exists_denotes_of_rank (rank_ofInt n) h
  rwa [nearest, hk.floorInt]

theorem nearest_of_le (h : n.natAbs ≤ 2 ^ 53) : nearest n = n :=
  (denotes_ofInt_of_le h).floorInt

/-- What a double stands for is read as it is. -/
theorem Denotes.nearest (h : x.Denotes n) : nearest n = n := by
  have hread : (ofInt n).Denotes n := h.of_rank_eq (by rw [rank_ofInt, h.rank])
  exact hread.floorInt

theorem rank_ofInt_mono (h : m ≤ n) : (ofInt m).rank ≤ (ofInt n).rank := by
  rw [rank_ofInt, rank_ofInt]
  exact rankOfUnits_whole_mono h

/-- Reading keeps the order of whole numbers. -/
theorem nearest_mono (hm : m.natAbs ≤ 2 ^ 64) (hn : n.natAbs ≤ 2 ^ 64) (h : m ≤ n) :
    nearest m ≤ nearest n := by
  have hrank := rank_ofInt_mono h
  rw [← units_le_iff, (denotes_nearest hm).units, (denotes_nearest hn).units] at hrank
  exact Int.le_of_mul_le_mul_right hrank one_pos

/-- A sum of whole numbers is rounded as a whole number is read. -/
theorem Denotes.add (hx : x.Denotes m) (hy : y.Denotes n) (h : (m + n).natAbs ≤ 2 ^ 64) :
    (x.add y).Denotes (Double.nearest (m + n)) :=
  (denotes_nearest h).of_rank_eq (by rw [rank_ofInt, hx.rank_add hy])

theorem Denotes.sub (hx : x.Denotes m) (hy : y.Denotes n) (h : (m - n).natAbs ≤ 2 ^ 64) :
    (x.sub y).Denotes (Double.nearest (m - n)) :=
  hx.add hy.neg h

end Rounded

end Double

end Specimen
