import Mathlib.Data.Rat.Floor
import Mathlib.Tactic.Linarith
import Specimen.Proofs.BoundEdges
import Specimen.Proofs.EffectiveBounds

/-!
# What bounds leave of the integers

An effective bound may be any double. One with a fraction is less than `2 ^ 53` in size, so that it is
rounded up or down to a whole number without loss. The integer next inside an excluded bound is
rounded to a double as well: below `2 ^ 53` that loses nothing, and beyond an integer inside the bound
may be cut off.
-/

namespace Specimen

namespace Double

/-! ### Whole parts -/

section WholeParts

variable {x y : Double} {k n : Int}

theorem floorInt_eq (x : Double) : x.floorInt = ⌊x.value⌋ :=
  (Rat.floor_intCast_div_natCast x.units one).symm

theorem ceilInt_eq (x : Double) : x.ceilInt = ⌈x.value⌉ := by
  have hneg : -x.value = ((-x.units : Int) : ℚ) / one := by
    rw [value, Int.cast_neg, neg_div]
  rw [ceilInt, ← Rat.floor_intCast_div_natCast, ← hneg, Int.floor_neg, Int.neg_neg]

theorem floorInt_mono (h : x.rank ≤ y.rank) : x.floorInt ≤ y.floorInt :=
  Int.ediv_le_ediv one_pos (units_le_iff.mpr h)

theorem unitsOfMagnitude_lt_or_dvd (magnitude : Nat) :
    unitsOfMagnitude magnitude < 2 ^ 53 * one ∨ one ∣ unitsOfMagnitude magnitude := by
  obtain ⟨shift, count, rfl, hlt, hnormal⟩ := exists_shift magnitude
  rw [unitsOfMagnitude_shift hlt.le hnormal, one_eq]
  rw [fractionCount_eq] at hlt
  generalize unitExponent = exponent
  rcases Nat.le_total exponent shift with hlarge | hsmall
  · exact .inr ((Nat.pow_dvd_pow 2 hlarge).mul_left count)
  · have hpow : 2 ^ shift ≤ 2 ^ exponent := Nat.pow_le_pow_right Nat.two_pos hsmall
    exact .inl (Nat.mul_lt_mul_of_lt_of_le hlt hpow (Nat.two_pow_pos exponent))

/-- A double with a fraction is less than `2 ^ 53` in size. -/
theorem exists_denotes_or_lt (hx : x.isFinite = true) :
    (∃ n, x.Denotes n) ∨ |x.value| < 2 ^ 53 := by
  have hsize : unitsOfMagnitude x.rank.natAbs = x.units.natAbs := by
    rw [units_eq_signed, natAbs_signed]
  rcases unitsOfMagnitude_lt_or_dvd x.rank.natAbs with hsmall | hwhole
  · right
    have hone : (0 : ℚ) < one := by exact_mod_cast one_pos
    rw [hsize] at hsmall
    rw [value, abs_div, abs_of_pos hone, div_lt_iff₀ hone, ← Int.cast_abs, Int.abs_eq_natAbs]
    exact_mod_cast hsmall
  · left
    rw [hsize] at hwhole
    obtain ⟨n, hn⟩ := Int.natCast_dvd.mpr hwhole
    exact ⟨n, hx, by rw [hn, Int.mul_comm]⟩

theorem denotes_of_value (hx : x.isFinite = true) (h : x.value = n) : x.Denotes n where
  finite := hx
  units := by
    have hone : (one : ℚ) ≠ 0 := by exact_mod_cast one_pos.ne'
    rw [value, div_eq_iff hone] at h
    exact_mod_cast h

theorem natAbs_floorInt_le (h : |x.value| < 2 ^ 53) : x.floorInt.natAbs ≤ 2 ^ 53 := by
  obtain ⟨hlow, hhigh⟩ := abs_lt.mp h
  have hbelow : x.floorInt < 2 ^ 53 := by
    rw [floorInt_eq, Int.floor_lt]
    exact_mod_cast hhigh
  have habove : -2 ^ 53 ≤ x.floorInt := by
    rw [floorInt_eq, Int.le_floor]
    exact_mod_cast hlow.le
  omega

theorem natAbs_ceilInt_le (h : |x.value| < 2 ^ 53) : x.ceilInt.natAbs ≤ 2 ^ 53 := by
  obtain ⟨hlow, hhigh⟩ := abs_lt.mp h
  have hbelow : x.ceilInt ≤ 2 ^ 53 := by
    rw [ceilInt_eq, Int.ceil_le]
    exact_mod_cast hhigh.le
  have habove : -2 ^ 53 < x.ceilInt := by
    rw [ceilInt_eq, Int.lt_ceil]
    exact_mod_cast hlow
  omega

theorem denotes_floor (hx : x.isFinite = true) : x.floor.Denotes x.floorInt := by
  rcases exists_denotes_or_lt hx with ⟨n, hn⟩ | hsmall
  · rw [hn.floorInt]
    exact hn.floor
  · exact denotes_of_rank (rank_floor hx) (natAbs_floorInt_le hsmall)

theorem denotes_ceil (hx : x.isFinite = true) : x.ceil.Denotes x.ceilInt := by
  rcases exists_denotes_or_lt hx with ⟨n, hn⟩ | hsmall
  · rw [hn.ceilInt]
    exact hn.ceil
  · exact denotes_of_rank (rank_ceil hx) (natAbs_ceilInt_le hsmall)

/-! ### Rounded whole numbers -/

theorem isNaN_of_rank (h : x.rank = rankOfUnits n) : x.isNaN = false := by
  rw [isNaN, decide_eq_false_iff_not, ← natAbs_rank, h, natAbs_rankOfUnits, Nat.not_lt]
  exact magnitudeOfRatio_le _ _

theorem Denotes.nearest_le (hx : x.Denotes n) (h : k ≤ n) : Double.nearest k ≤ n := by
  rw [← hx.floorInt]
  refine floorInt_mono ?_
  rw [rank_ofInt, hx.rank]
  exact rankOfUnits_whole_mono h

theorem Denotes.le_nearest (hx : x.Denotes n) (h : n ≤ k) : n ≤ Double.nearest k := by
  rw [← hx.floorInt]
  refine floorInt_mono ?_
  rw [rank_ofInt, hx.rank]
  exact rankOfUnits_whole_mono h

end WholeParts

end Double

/-! ### The integers inside a bound -/

namespace Side

open Double

/-- The integer next inside of a number. -/
def nextInside : Side → Double → Int
  | .lower, x => x.floorInt + 1
  | .upper, x => x.ceilInt - 1

/-- The first integer that is not outside of a bound. -/
def outermost (side : Side) (bound : Bound) : Int :=
  if bound.exclusive then side.nextInside bound.value
  else match side with
    | .lower => bound.value.ceilInt
    | .upper => bound.value.floorInt

/-- An integer is not cut off by a large excluded bound when the integer next inside of that is
rounded to a double. -/
def Clears (side : Side) (effective : Option Bound) (n : Int) : Prop :=
  ∀ bound, effective = some bound → bound.exclusive = true → 2 ^ 53 ≤ |bound.value.value| →
    side.Reaches (nearest (side.nextInside bound.value)) n

/-- The integer next inside of an excluded bound is a double. -/
def Exact (side : Side) (effective : Option Bound) : Prop :=
  ∀ bound, effective = some bound → bound.exclusive = true →
    nearest (side.nextInside bound.value) = side.nextInside bound.value

variable {side : Side} {bound : Bound} {x : Double} {n : Int}

theorem reaches_nextInside_iff : side.Reaches (side.nextInside x) n ↔ side.Passes x.value n := by
  cases side with
  | lower =>
      change ((x.floorInt + 1 : Int) : ℚ) ≤ n ↔ x.value < n
      rw [Int.cast_le, Int.add_one_le_iff, floorInt_eq, Int.floor_lt]
  | upper =>
      change (n : ℚ) ≤ (x.ceilInt - 1 : Int) ↔ n < x.value
      rw [Int.cast_le, Int.le_sub_one_iff, ceilInt_eq, Int.lt_ceil]

theorem natAbs_nextInside_le (h : |x.value| < 2 ^ 53) : (side.nextInside x).natAbs ≤ 2 ^ 53 := by
  obtain ⟨hlow, hhigh⟩ := abs_lt.mp h
  cases side with
  | lower =>
      have hbelow : x.floorInt < 2 ^ 53 := by
        rw [floorInt_eq, Int.floor_lt]
        exact_mod_cast hhigh
      have hsize := natAbs_floorInt_le h
      change (x.floorInt + 1).natAbs ≤ 2 ^ 53
      omega
  | upper =>
      have habove : -2 ^ 53 < x.ceilInt := by
        rw [ceilInt_eq, Int.lt_ceil]
        exact_mod_cast hlow
      have hsize := natAbs_ceilInt_le h
      change (x.ceilInt - 1).natAbs ≤ 2 ^ 53
      omega

theorem clears_none : side.Clears none n := nofun

theorem clears_of_inclusive (h : bound.exclusive = false) : side.Clears (some bound) n := by
  rintro _ ⟨⟩ htrue
  simp [h] at htrue

theorem exact_of_inclusive (h : bound.exclusive = false) : side.Exact (some bound) := by
  rintro _ ⟨⟩ htrue
  simp [h] at htrue

theorem nearest_outermost (hfinite : bound.value.isFinite = true) (h : side.Exact (some bound)) :
    nearest (side.outermost bound) = side.outermost bound := by
  unfold outermost
  cases hexclusive : bound.exclusive with
  | false =>
      cases side with
      | lower => exact (denotes_ceil hfinite).nearest
      | upper => exact (denotes_floor hfinite).nearest
  | true => exact h bound rfl hexclusive

/-- An integer that a bound allows is inside what the bound leaves after rounding, unless a large
excluded bound cuts it off. -/
theorem reaches_outermost_iff (hfinite : bound.value.isFinite = true)
    (h : side.Allows (some bound) n) :
    side.Reaches (nearest (side.outermost bound)) n ↔ side.Clears (some bound) n := by
  rw [allows_some_iff] at h
  cases hexclusive : bound.exclusive with
  | false =>
      rw [hexclusive, if_neg Bool.false_ne_true] at h
      refine iff_of_true ?_ (clears_of_inclusive hexclusive)
      rw [nearest_outermost hfinite (exact_of_inclusive hexclusive)]
      simp only [outermost, hexclusive, Bool.false_eq_true, if_false]
      cases side with
      | lower =>
          refine Int.cast_le.mpr ?_
          rw [ceilInt_eq, Int.ceil_le]
          exact h
      | upper =>
          refine Int.cast_le.mpr ?_
          rw [floorInt_eq, Int.le_floor]
          exact h
  | true =>
      rw [hexclusive, if_pos rfl] at h
      simp only [outermost, hexclusive, if_true]
      constructor
      · rintro hreaches _ ⟨⟩ - -
        exact hreaches
      · intro hclears
        rcases le_or_gt (2 ^ 53) |bound.value.value| with hlarge | hsmall
        · exact hclears bound rfl hexclusive hlarge
        · rw [nearest_of_le (natAbs_nextInside_le hsmall)]
          exact reaches_nextInside_iff.mpr h

end Side

/-! ### The limits of an integer range -/

namespace IntegerRange

open Double

variable {bound : Bound} {k m n : Int} {x : Double}

theorem rank_lowest (hfinite : bound.value.isFinite = true) :
    (if bound.exclusive then bound.value.floor.add (ofInt 1) else bound.value.ceil).rank =
      rankOfUnits (Side.lower.outermost bound * one) := by
  unfold Side.outermost
  cases bound.exclusive with
  | false => exact (denotes_ceil hfinite).rank
  | true => exact (denotes_floor hfinite).rank_add (denotes_ofInt_of_le (by decide))

theorem rank_highest (hfinite : bound.value.isFinite = true) :
    (if bound.exclusive then bound.value.ceil.sub (ofInt 1) else bound.value.floor).rank =
      rankOfUnits (Side.upper.outermost bound * one) := by
  have hone : (ofInt 1).Denotes 1 := denotes_ofInt_of_le (by decide)
  unfold Side.outermost
  cases bound.exclusive with
  | false => exact (denotes_floor hfinite).rank
  | true => exact (denotes_ceil hfinite).rank_add hone.neg

theorem denotes_of_rank_eq (h : x.rank = rankOfUnits (k * one)) (hk : k.natAbs ≤ 2 ^ 64) :
    x.Denotes (nearest k) :=
  (denotes_nearest hk).of_rank_eq (by rw [rank_ofInt, h])

theorem rank_mono {y : Double} (hx : x.rank = rankOfUnits (k * one)) (hy : y.Denotes m) :
    (k ≤ m → x.rank ≤ y.rank) ∧ (m ≤ k → y.rank ≤ x.rank) := by
  rw [hx, hy.rank]
  exact ⟨Double.rankOfUnits_whole_mono, Double.rankOfUnits_whole_mono⟩

/-- The least integer that a lower bound allows begins the integers inside what it leaves after
rounding. -/
theorem least_le_iff (hfinite : bound.value.isFinite = true) (h : least bound = .ok m)
    (hn : Fits n) : m ≤ n ↔ Side.lower.Reaches (nearest (Side.lower.outermost bound)) n := by
  have hrank := rank_lowest hfinite
  change m ≤ n ↔ ((nearest (Side.lower.outermost bound) : Int) : ℚ) ≤ n
  rw [Int.cast_le]
  unfold least at h
  generalize (if bound.exclusive = true then bound.value.floor.add (ofInt 1)
    else bound.value.ceil) = lowest at h hrank
  generalize Side.lower.outermost bound = k at hrank ⊢
  obtain ⟨hbelow, rfl⟩ := Outcome.check_eq_ok.mp h
  obtain ⟨hlow, hhigh⟩ := hn
  unfold minInt64 at hlow
  have hsmall : k < 0x8000000000000000 := by
    refine Int.not_le.mp fun hlarge => hbelow ?_
    simp [le, isNaN_of_rank hrank, isNaN_of_isFinite denotes_limit.finite,
      (rank_mono hrank denotes_limit).2 hlarge]
  rcases Int.lt_or_le k (-0x8000000000000000) with hbeyond | hreach
  · -- The bound is below all integers of 64 bits, and so is what it is rounded to.
    have hcut : lowest.max limit.neg = limit.neg := by
      have hlt : limit.neg.lt lowest = false := by
        have hle := (rank_mono hrank denotes_limit.neg).1 hbeyond.le
        simp [lt, Int.not_lt.mpr hle]
      simp [Double.max, isNaN_of_isFinite denotes_limit.neg.finite, hlt]
    have hnearest := denotes_limit.neg.nearest_le hbeyond.le
    rw [hcut, denotes_limit.neg.toInt64]
    exact iff_of_true hlow (hnearest.trans hlow)
  · have hdenotes := denotes_of_rank_eq hrank (by omega)
    have hfits : nearest k < 0x8000000000000000 := by
      rw [denotes_limit.le_iff hdenotes] at hbelow
      exact Int.not_le.mp hbelow
    have hnearest := denotes_limit.neg.le_nearest hreach
    have hcut : (lowest.max limit.neg).Denotes (nearest k) := by
      rw [hdenotes.max_eq denotes_limit.neg]
      split
      next => exact hdenotes
      next hend =>
        rw [Int.le_antisymm (Int.not_lt.mp hend) hnearest]
        exact denotes_limit.neg
    rw [hcut.toInt64]
    unfold minInt64 maxInt64
    split_ifs <;> omega

/-- The greatest integer that an upper bound allows ends the integers inside what it leaves after
rounding. -/
theorem le_greatest_iff (hfinite : bound.value.isFinite = true) (h : greatest bound = .ok m)
    (hn : Fits n) : n ≤ m ↔ Side.upper.Reaches (nearest (Side.upper.outermost bound)) n := by
  have hrank := rank_highest hfinite
  change n ≤ m ↔ (n : ℚ) ≤ (nearest (Side.upper.outermost bound) : Int)
  rw [Int.cast_le]
  unfold greatest at h
  generalize (if bound.exclusive = true then bound.value.ceil.sub (ofInt 1)
    else bound.value.floor) = highest at h hrank
  generalize Side.upper.outermost bound = k at hrank ⊢
  obtain ⟨habove, rfl⟩ := Outcome.check_eq_ok.mp h
  obtain ⟨hlow, hhigh⟩ := hn
  unfold maxInt64 at hhigh
  have hlarge : -0x10000000000000000 < k := by
    refine Int.not_le.mp fun hsmall => habove ?_
    have hfar : (ofInt (-0x10000000000000000)).Denotes (-0x10000000000000000) :=
      ⟨by decide +kernel, by decide +kernel⟩
    have hlt : (ofInt (-0x10000000000000000)).rank < limit.neg.rank := by decide +kernel
    have hle := (rank_mono hrank hfar).1 hsmall
    simp [lt, isNaN_of_rank hrank, isNaN_of_isFinite denotes_limit.neg.finite, hle.trans_lt hlt]
  rcases Int.lt_or_le k 0x8000000000000000 with hreach | hbeyond
  · have hdenotes := denotes_of_rank_eq hrank (by omega)
    have hfits : -0x8000000000000000 ≤ nearest k := by
      rw [hdenotes.lt_iff denotes_limit.neg] at habove
      exact Int.not_lt.mp habove
    simp only [denotes_limit.le_iff hdenotes]
    split
    next hend =>
      unfold maxInt64
      omega
    next hinside =>
      rw [hdenotes.toInt64]
      unfold minInt64 maxInt64
      split_ifs <;> omega
  · -- The bound is above all integers of 64 bits, and so is what it is rounded to.
    have hle : limit.le highest = true := by
      simp [le, isNaN_of_rank hrank, isNaN_of_isFinite denotes_limit.finite,
        (rank_mono hrank denotes_limit).2 hbeyond]
    have hnearest := denotes_limit.le_nearest hbeyond
    rw [if_pos hle]
    unfold maxInt64
    omega

end IntegerRange

end Specimen
