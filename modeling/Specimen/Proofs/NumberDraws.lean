import Specimen.Proofs.Draw
import Specimen.Proofs.EffectiveBounds
import Specimen.Proofs.Midpoints

/-!
# What number leaves draw

A number is drawn as a part of the distance between the bounds, or, where that distance is too large
for a double, as a weighted sum of the bounds. Either way it lies between them. A draw that falls on
an end it must not take is replaced by the middle of the bounds, which is off both ends exactly if
there is a double between them.
-/

namespace Specimen

namespace Double

/-! ### Products -/

section Products

variable {x y w : Double}

theorem magnitudeOfRatio_zero (d : Nat) : magnitudeOfRatio 0 d = 0 := by
  simp [magnitudeOfRatio, roundHalfEven, bitLength]

theorem rank_mul (hx : x.isFinite = true) (hy : y.isFinite = true) :
    (x.mul y).rank = signed (magnitudeOfRatio · one) (x.units * y.units) := by
  have hsize : magnitudeOfRatio (unitsOfMagnitude x.magnitude * unitsOfMagnitude y.magnitude) one <
      signWeight := (magnitudeOfRatio_le _ _).trans_lt (by decide)
  simp only [mul, isNaN_of_isFinite hx, isNaN_of_isFinite hy, Bool.or_self, Bool.false_eq_true,
    if_false, hx, hy, Bool.and_self, if_true]
  rw [ofRatio, rank_ofMagnitude hsize, units, units]
  generalize unitsOfMagnitude x.magnitude = m
  generalize unitsOfMagnitude y.magnitude = n
  have hpositive : signed (magnitudeOfRatio · one) ((m : Int) * n) =
      magnitudeOfRatio (m * n) one := by
    rw [← Int.natCast_mul, signed_of_nonneg (Int.natCast_nonneg _), Int.natAbs_natCast]
  have hnegative : signed (magnitudeOfRatio · one) (-((m : Int) * n)) =
      -(magnitudeOfRatio (m * n) one : Int) := by
    rw [← Int.natCast_mul]
    exact @signed_neg_cast (magnitudeOfRatio · one) (magnitudeOfRatio_zero one) (m * n)
  cases x.negative <;> cases y.negative <;>
    simp only [bne_self_eq_false, Bool.bne_false, Bool.bne_true, Bool.not_false,
      Bool.false_eq_true, if_false, if_true, Int.neg_mul, Int.mul_neg, Int.neg_neg, hpositive,
      hnegative]

theorem signed_mul_one (n : Int) : signed (magnitudeOfRatio · one) (n * one) = rankOfUnits n := by
  have hsign : n * one < 0 ↔ n < 0 := by
    rw [← Int.not_le, ← Int.not_le, Int.mul_nonneg_iff_of_pos_right one_pos]
  have hpos : 0 < one := Int.natCast_pos.mp one_pos
  rw [rankOfUnits, signed, signed, Int.natAbs_mul, Int.natAbs_natCast, magnitudeOfRatio_mul hpos]
  simp only [hsign]

/-- The place of a ratio of counts to one. -/
theorem signed_ratio_mono {m n : Int} (h : m ≤ n) :
    signed (magnitudeOfRatio · one) m ≤ signed (magnitudeOfRatio · one) n :=
  signed_le (fun _ _ hle => magnitudeOfRatio_mono (Int.natCast_pos.mp one_pos) hle) h

theorem signed_ratio_zero : signed (magnitudeOfRatio · one) 0 = 0 := by
  rw [signed_of_nonneg le_rfl, Int.natAbs_zero, magnitudeOfRatio_zero]
  rfl

theorem rank_mul_comm (hx : x.isFinite = true) (hy : y.isFinite = true) :
    (x.mul y).rank = (y.mul x).rank := by
  rw [rank_mul hx hy, rank_mul hy hx, Int.mul_comm]

/-- A weight: a number from zero to one. -/
structure IsWeight (w : Double) : Prop where
  finite : w.isFinite = true
  nonneg : 0 ≤ w.units
  le_one : w.units ≤ one

theorem IsWeight.mul_of_nonneg (h : w.IsWeight) (hx : x.isFinite = true) (hsign : 0 ≤ x.units) :
    0 ≤ (x.mul w).rank ∧ (x.mul w).rank ≤ x.rank := by
  have hlow := signed_ratio_mono (Int.mul_nonneg hsign h.nonneg)
  have hhigh := signed_ratio_mono (Int.mul_le_mul_of_nonneg_left h.le_one hsign)
  rw [signed_ratio_zero] at hlow
  rw [signed_mul_one, rankOfUnits_units hx] at hhigh
  rw [rank_mul hx h.finite]
  exact ⟨hlow, hhigh⟩

theorem IsWeight.mul_of_nonpos (h : w.IsWeight) (hx : x.isFinite = true) (hsign : x.units ≤ 0) :
    x.rank ≤ (x.mul w).rank ∧ (x.mul w).rank ≤ 0 := by
  have hlower : x.units * one ≤ x.units * w.units := Int.mul_le_mul_of_nonpos_left hsign h.le_one
  have hupper : x.units * w.units ≤ 0 := Int.mul_nonpos_of_nonpos_of_nonneg hsign h.nonneg
  have hlow := signed_ratio_mono hlower
  have hhigh := signed_ratio_mono hupper
  rw [signed_mul_one, rankOfUnits_units hx] at hlow
  rw [signed_ratio_zero] at hhigh
  rw [rank_mul hx h.finite]
  exact ⟨hlow, hhigh⟩

end Products

/-! ### Signs and differences -/

section Signs

variable {x y : Double}

theorem units_nonneg_iff : 0 ≤ x.units ↔ 0 ≤ x.rank := by
  have hzero : signed unitsOfMagnitude 0 = 0 := by decide
  calc
    0 ≤ x.units ↔ signed unitsOfMagnitude 0 ≤ signed unitsOfMagnitude x.rank := by
      rw [hzero, ← units_eq_signed]
    _ ↔ 0 ≤ x.rank := signed_le_iff strictMono_unitsOfMagnitude

theorem units_nonpos_iff : x.units ≤ 0 ↔ x.rank ≤ 0 := by
  have hzero : signed unitsOfMagnitude 0 = 0 := by decide
  calc
    x.units ≤ 0 ↔ signed unitsOfMagnitude x.rank ≤ signed unitsOfMagnitude 0 := by
      rw [hzero, ← units_eq_signed]
    _ ↔ x.rank ≤ 0 := signed_le_iff strictMono_unitsOfMagnitude

theorem rankOfUnits_zero : rankOfUnits 0 = 0 := by
  rw [rankOfUnits, signed_of_nonneg le_rfl, Int.natAbs_zero, magnitudeOfRatio_zero]
  rfl

theorem units_neg (x : Double) : x.neg.units = -x.units := by
  rw [units_eq_signed, rank_neg, signed_neg (by decide), ← units_eq_signed]

theorem isFinite_neg (hx : x.isFinite = true) : x.neg.isFinite = true := by
  rw [isFinite_iff, rank_neg, Int.natAbs_neg, ← isFinite_iff]
  exact hx

theorem rank_sub (hx : x.isFinite = true) (hy : y.isFinite = true) :
    (x.sub y).rank = rankOfUnits (x.units - y.units) := by
  rw [sub, rank_add hx (isFinite_neg hy), units_neg, Int.sub_eq_add_neg]

theorem value_lt_iff_rank : x.value < y.value ↔ x.rank < y.rank := by
  rw [← not_le, value_le_value_iff, units_le_iff, Int.not_le]

theorem value_le_iff_rank : x.value ≤ y.value ↔ x.rank ≤ y.rank := by
  rw [value_le_value_iff, units_le_iff]

theorem value_eq_iff_rank : x.value = y.value ↔ x.rank = y.rank := by
  rw [le_antisymm_iff, value_le_iff_rank, value_le_iff_rank, ← le_antisymm_iff]

theorem lt_eq_decide (hx : x.isFinite = true) (hy : y.isFinite = true) :
    x.lt y = decide (x.rank < y.rank) := by
  simp [lt, isNaN_of_isFinite hx, isNaN_of_isFinite hy]

theorem le_eq_decide (hx : x.isFinite = true) (hy : y.isFinite = true) :
    x.le y = decide (x.rank ≤ y.rank) := by
  simp [le, isNaN_of_isFinite hx, isNaN_of_isFinite hy]

theorem equal_eq_decide (hx : x.isFinite = true) (hy : y.isFinite = true) :
    x.equal y = decide (x.rank = y.rank) := by
  simp [equal, isNaN_of_isFinite hx, isNaN_of_isFinite hy]

/-- A distance too large for a double has zero in it. -/
theorem zero_between_of_sub (hx : x.isFinite = true) (hy : y.isFinite = true)
    (hle : x.units ≤ y.units) (h : (y.sub x).isFinite = false) : x.units < 0 ∧ 0 < y.units := by
  have hrank : infiniteMagnitude ≤ (rankOfUnits (y.units - x.units)).natAbs := by
    rw [← rank_sub hy hx]
    exact Nat.not_lt.mp (mt isFinite_iff.mpr (by simp [h]))
  rw [natAbs_rankOfUnits] at hrank
  have hbelow {z : Double} (hz : z.isFinite = true) :
      ¬ (y.units - x.units).natAbs ≤ z.units.natAbs := by
    intro hcontra
    have hmono := magnitudeOfRatio_mono Nat.one_pos hcontra
    rw [← natAbs_rankOfUnits z.units, rankOfUnits_units hz] at hmono
    exact absurd (isFinite_iff.mp hz) (Nat.not_lt.mpr (hrank.trans hmono))
  have hnotX := hbelow hx
  have hnotY := hbelow hy
  omega

end Signs

/-! ### Weights -/

section Weights

variable {n k : Nat} {w : Double}

theorem units_ofInt_one : (ofInt 1).units = one := by
  have hone : (ofInt 1).Denotes 1 := denotes_ofInt_of_le (by decide)
  rw [hone.units, Int.one_mul]

theorem isWeight_of_rank (hlow : 0 ≤ w.rank) (hhigh : w.rank ≤ (ofInt 1).rank) : w.IsWeight where
  finite := by
    have hone : (ofInt 1).Denotes 1 := denotes_ofInt_of_le (by decide)
    exact isFinite_of_rank_mem (x := zero) (by decide) hone.finite hlow hhigh
  nonneg := units_nonneg_iff.mpr hlow
  le_one := by
    rw [← units_ofInt_one]
    exact units_le_iff.mpr hhigh

theorem isWeight_ofBinary (hk : k ≤ unitExponent) (hn : n ≤ 2 ^ k) : (ofBinary n k).IsWeight := by
  have hone : (ofInt 1).Denotes 1 := denotes_ofInt_of_le (by decide)
  have hcount : n * 2 ^ (unitExponent - k) ≤ one := by
    calc
      n * 2 ^ (unitExponent - k) ≤ 2 ^ k * 2 ^ (unitExponent - k) := Nat.mul_le_mul_right _ hn
      _ = one := by rw [← Nat.pow_add, Nat.add_sub_cancel' hk, one_eq]
  have hsize : magnitudeOfRatio (n * 2 ^ (unitExponent - k)) 1 < signWeight :=
    (magnitudeOfRatio_le _ _).trans_lt (by decide)
  have hrank : (ofBinary n k).rank = magnitudeOfRatio (n * 2 ^ (unitExponent - k)) 1 := by
    rw [ofBinary, ofRatio, Nat.pow_eq, rank_ofMagnitude hsize, if_neg Bool.false_ne_true]
  have hle : (ofBinary n k).rank ≤ (ofInt 1).rank := by
    rw [hrank, hone.rank, Int.one_mul, rankOfUnits_natCast]
    exact_mod_cast magnitudeOfRatio_mono Nat.one_pos hcount
  have hnonneg : 0 ≤ (ofBinary n k).rank := by
    rw [hrank]
    exact Int.natCast_nonneg _
  exact isWeight_of_rank hnonneg hle

/-- What a weight leaves of one is a weight. -/
theorem IsWeight.one_sub (h : w.IsWeight) : ((ofInt 1).sub w).IsWeight := by
  have hone : (ofInt 1).Denotes 1 := denotes_ofInt_of_le (by decide)
  have hnonneg := h.nonneg
  have hle := h.le_one
  have hrank : ((ofInt 1).sub w).rank = rankOfUnits (one - w.units) := by
    rw [rank_sub hone.finite h.finite, units_ofInt_one]
  have hlow : 0 ≤ ((ofInt 1).sub w).rank := by
    rw [hrank, ← rankOfUnits_zero]
    exact rankOfUnits_mono (Int.sub_nonneg_of_le hle)
  have hhigh : ((ofInt 1).sub w).rank ≤ (ofInt 1).rank := by
    rw [hrank, hone.rank, Int.one_mul]
    exact rankOfUnits_mono (Int.sub_le_self _ hnonneg)
  exact isWeight_of_rank hlow hhigh

end Weights

end Double

/-! ### Draws between two bounds -/

namespace Draw

open Double

/-- A double drawn from a range is in it, the upper end left out. -/
theorem doubleBetween_mem {low high : Double} (hlow : low.isFinite = true)
    (hhigh : high.isFinite = true) (hlt : low.rank < high.rank)
    (hspan : (high.sub low).isFinite = true) (s : Source) :
    low.rank ≤ (doubleBetween low high s).1.rank ∧
      (doubleBetween low high s).1.rank < high.rank := by
  refine search_spec (fun x : Double => low.rank ≤ x.rank ∧ x.rank < high.rank) ⟨le_rfl, hlt⟩ ?_ _ s
  intro t x haccept
  have hweight : (ofBinary ((word64 t).1 / 0x1000) 52).IsWeight := by
    have hword := word64_lt t
    exact isWeight_ofBinary (by decide) (by simp only [Nat.pow_eq] at hword; omega)
  dsimp only at haccept
  generalize ofBinary ((word64 t).1 / 0x1000) 52 = w at hweight haccept
  split at haccept
  next hbelow =>
    cases haccept
    have hdistance : 0 ≤ (high.sub low).units := by
      rw [units_nonneg_iff, rank_sub hhigh hlow, ← rankOfUnits_zero]
      exact rankOfUnits_mono (Int.sub_nonneg_of_le (units_le_iff.mpr hlt.le))
    obtain ⟨hnonneg, hle⟩ := hweight.mul_of_nonneg hspan hdistance
    rw [rank_mul_comm hspan hweight.finite] at hnonneg hle
    have hpart : (w.mul (high.sub low)).isFinite = true :=
      isFinite_of_rank_mem (x := zero) (by decide) hspan hnonneg hle
    have habove : low.rank ≤ ((w.mul (high.sub low)).add low).rank := by
      rw [rank_add hpart hlow, ← rankOfUnits_units hlow]
      exact rankOfUnits_mono (Int.le_add_of_nonneg_left (units_nonneg_iff.mpr hnonneg))
    simp only [lt, Bool.and_eq_true, decide_eq_true_eq] at hbelow
    exact ⟨habove, hbelow.2⟩
  next => cases haccept

end Draw

namespace NumberRange

open Double

/-- A range between two doubles, both in it if there is only one. -/
structure Drawable (range : NumberRange) : Prop where
  low : range.low.isFinite = true
  high : range.high.isFinite = true
  ordered : range.low.rank ≤ range.high.rank
  single : range.low.rank = range.high.rank →
    range.lowExclusive = false ∧ range.highExclusive = false

variable {c : Constraints} {range : NumberRange} {s : Source} {x : Double}

theorem isEmpty_eq_false_iff {low high : Bound} : isEmpty low high = false ↔
    Drawable ⟨low.value, high.value, low.exclusive, high.exclusive⟩ := by
  have hends (hlow : low.value.isFinite = true) (hhigh : high.value.isFinite = true) :
      isEmpty low high = false ↔ low.value.rank ≤ high.value.rank ∧
        (low.value.rank = high.value.rank → low.exclusive = false ∧ high.exclusive = false) := by
    rw [isEmpty, lt_eq_decide hhigh hlow, equal_eq_decide hlow hhigh, hlow, hhigh]
    simp
  constructor
  · intro h
    have hfinite : low.value.isFinite = true ∧ high.value.isFinite = true := by
      simp only [isEmpty, Bool.or_eq_false_iff, Bool.not_eq_false'] at h
      exact ⟨h.1.2, h.2⟩
    obtain ⟨hordered, hsingle⟩ := (hends hfinite.1 hfinite.2).mp h
    exact ⟨hfinite.1, hfinite.2, hordered, hsingle⟩
  · intro h
    exact (hends h.low h.high).mpr ⟨h.ordered, h.single⟩

/-- The range of constraints is the span of their effective bounds, if that can be drawn from. -/
theorem ofConstraints_eq_ok_iff : ofConstraints c = .ok range ↔ range.Drawable ∧
    range = ⟨(span c.lower c.upper).1.value, (span c.lower c.upper).2.value,
      (span c.lower c.upper).1.exclusive, (span c.lower c.upper).2.exclusive⟩ := by
  simp only [ofConstraints]
  constructor
  · intro h
    split at h
    next => cases h
    next hempty =>
      cases h
      exact ⟨isEmpty_eq_false_iff.mp (Bool.eq_false_iff.mpr hempty), rfl⟩
  · rintro ⟨hdrawable, rfl⟩
    rw [isEmpty_eq_false_iff.mpr hdrawable]
    rfl

/-- Weighted bounds lie between the bounds. -/
theorem rank_weighted {w : Double} (h : range.Drawable) (hw : w.IsWeight)
    (hlow : range.low.units < 0) (hhigh : 0 < range.high.units) :
    range.low.rank ≤ ((range.low.mul ((ofInt 1).sub w)).add (range.high.mul w)).rank ∧
      ((range.low.mul ((ofInt 1).sub w)).add (range.high.mul w)).rank ≤ range.high.rank := by
  obtain ⟨hlow₁, hlow₂⟩ := hw.one_sub.mul_of_nonpos h.low hlow.le
  obtain ⟨hhigh₁, hhigh₂⟩ := hw.mul_of_nonneg h.high hhigh.le
  generalize range.low.mul ((ofInt 1).sub w) = a at *
  generalize range.high.mul w = b at *
  have hzero : zero.isFinite = true := by decide
  have ha : a.isFinite = true := isFinite_of_rank_mem h.low hzero hlow₁ hlow₂
  have hb : b.isFinite = true := isFinite_of_rank_mem hzero h.high hhigh₁ hhigh₂
  have hasign := units_nonpos_iff.mpr hlow₂
  have hbsign := units_nonneg_iff.mpr hhigh₁
  rw [← units_le_iff] at hlow₁ hhigh₂
  rw [rank_add ha hb]
  constructor
  · rw [← rankOfUnits_units h.low]
    exact rankOfUnits_mono (by omega)
  · rw [← rankOfUnits_units h.high]
    exact rankOfUnits_mono (by omega)

/-- Whichever way it is drawn, a number is between the bounds, and it reaches the upper one only
where there are numbers between them. -/
theorem rank_drawInside (h : range.Drawable) (hlt : range.low.rank < range.high.rank) (s : Source) :
    range.low.rank ≤ (range.drawInside s).1.rank ∧
      (range.drawInside s).1.rank ≤ range.high.rank ∧
      (range.high.rank ≤ (range.drawInside s).1.rank → range.low.rank + 1 < range.high.rank) := by
  rw [drawInside]
  by_cases hspan : (range.high.sub range.low).isFinite = true
  · rw [if_pos hspan]
    have hmem := Draw.doubleBetween_mem h.low h.high hlt hspan s
    omega
  · rw [if_neg hspan]
    obtain ⟨hlow, hhigh⟩ := zero_between_of_sub h.low h.high (units_le_iff.mpr h.ordered)
      (Bool.eq_false_iff.mpr hspan)
    have hweight : (ofBinary ((Draw.word64 s).1 / 0x800) 53).IsWeight := by
      have hword := Draw.word64_lt s
      exact isWeight_ofBinary (by decide) (by simp only [Nat.pow_eq] at hword; omega)
    have hmem := rank_weighted h hweight hlow hhigh
    have hlow' : ¬ 0 ≤ range.low.rank := mt units_nonneg_iff.mpr (by omega)
    have hhigh' : ¬ range.high.rank ≤ 0 := mt units_nonpos_iff.mpr (by omega)
    exact ⟨hmem.1, hmem.2, by omega⟩

/-! ### Draws that fall on an end -/

theorem rank_middle (h : range.Drawable) :
    range.middle.rank = middlePlace range.low.rank range.high.rank :=
  rank_add_half h.low h.high

theorem rank_middle_mem (h : range.Drawable) (hlt : range.low.rank < range.high.rank) :
    range.low.rank ≤ range.middle.rank ∧ range.middle.rank ≤ range.high.rank ∧
      (range.low.rank + 1 < range.high.rank →
        range.low.rank < range.middle.rank ∧ range.middle.rank < range.high.rank) := by
  have hlow := (isFinite_iff.mp h.low).le
  have hhigh := (isFinite_iff.mp h.high).le
  have hmem := middlePlace_mem hlow hhigh hlt
  rw [rank_middle h]
  exact ⟨hmem.1, hmem.2, middlePlace_between hlow hhigh⟩

theorem generate_leaf (range : NumberRange) (s : Source) :
    (range.leaf.generate s).1 = .ok (.float (range.draw s).1) :=
  rfl

theorem validate_leaf_float (range : NumberRange) (x : Double) :
    range.leaf.validate (.float x) = some (range.contains x) :=
  rfl

theorem draw_of_single (h : range.Drawable) (hsame : range.low.rank = range.high.rank)
    (s : Source) : (range.draw s).1 = range.low := by
  rw [draw, equal_eq_decide h.low h.high, if_pos (decide_eq_true hsame)]
  rfl

/-- What is drawn inside, or the middle in place of an end that is out of the question. -/
theorem rank_draw (h : range.Drawable) (hlt : range.low.rank < range.high.rank) (s : Source) :
    ((range.draw s).1).rank =
      if (range.lowExclusive = true ∧ (range.drawInside s).1.rank ≤ range.low.rank) ∨
        range.high.rank ≤ (range.drawInside s).1.rank
      then range.middle.rank else (range.drawInside s).1.rank := by
  have hinside := rank_drawInside h hlt s
  have hfinite : (range.drawInside s).1.isFinite = true :=
    isFinite_of_rank_mem h.low h.high hinside.1 hinside.2.1
  have hdraw : (range.draw s).1 =
      if (range.lowExclusive && (range.drawInside s).1.le range.low) ||
        range.high.le (range.drawInside s).1
      then range.middle else (range.drawInside s).1 := by
    rw [draw, equal_eq_decide h.low h.high, if_neg (by simp [hlt.ne])]
    rfl
  rw [hdraw, apply_ite Double.rank, le_eq_decide hfinite h.low, le_eq_decide h.high hfinite]
  simp only [Bool.or_eq_true, Bool.and_eq_true, decide_eq_true_eq]

/-- A draw on the lower end finds a place in the range: that end belongs to it, there are doubles
between the ends, or the middle of the ends is the upper end and that belongs to it. -/
def HasRoom (range : NumberRange) : Prop :=
  range.lowExclusive = false ∨
    (∃ x : Double, x.isFinite = true ∧ range.low.value < x.value ∧ x.value < range.high.value) ∨
    (range.highExclusive = false ∧ range.middle.value = range.high.value)

/-- Drawn numbers are between the bounds, whether the bounds belong to the range or not. -/
theorem rank_draw_mem (h : range.Drawable) (s : Source) :
    range.low.rank ≤ (range.draw s).1.rank ∧ (range.draw s).1.rank ≤ range.high.rank := by
  rcases h.ordered.eq_or_lt with hsame | hlt
  · rw [draw_of_single h hsame]
    exact ⟨le_rfl, h.ordered⟩
  · have hinside := rank_drawInside h hlt s
    have hmiddle := rank_middle_mem h hlt
    rw [rank_draw h hlt]
    split_ifs <;> omega

theorem contains_iff_rank (h : range.Drawable) (hx : x.isFinite = true) :
    range.contains x = true ↔
      (range.low.rank ≤ x.rank ∧ x.rank ≤ range.high.rank) ∧
        (range.lowExclusive = true → range.low.rank < x.rank) ∧
        (range.highExclusive = true → x.rank < range.high.rank) := by
  rw [contains, lt_eq_decide h.low hx, le_eq_decide h.low hx, lt_eq_decide hx h.high,
    le_eq_decide hx h.high]
  cases range.lowExclusive <;> cases range.highExclusive <;> simp <;> omega

theorem hasRoom_iff_rank (h : range.Drawable) :
    range.HasRoom ↔ range.lowExclusive = false ∨ range.low.rank + 1 < range.high.rank ∨
      (range.highExclusive = false ∧ range.middle.rank = range.high.rank) := by
  simp only [HasRoom, value_lt_iff_rank, value_eq_iff_rank, exists_between_iff h.low h.high]

/-- Whether what is drawn is in the range is not up to the source. -/
theorem contains_draw_iff (h : range.Drawable) (s : Source) :
    range.contains (range.draw s).1 = true ↔ range.HasRoom := by
  have hmem := rank_draw_mem h s
  rw [contains_iff_rank h (isFinite_of_rank_mem h.low h.high hmem.1 hmem.2), hasRoom_iff_rank h]
  rcases h.ordered.eq_or_lt with hsame | hlt
  · obtain ⟨hlow, hhigh⟩ := h.single hsame
    simp [hlow, hhigh, hmem]
  · have hinside := rank_drawInside h hlt s
    have hmiddle := rank_middle_mem h hlt
    have hdraw := rank_draw h hlt s
    generalize (range.draw s).1.rank = drawn at *
    generalize (range.drawInside s).1.rank = x at *
    cases hlower : range.lowExclusive with
    | false =>
        simp only [hlower, Bool.false_eq_true, false_and, false_or] at hdraw
        have hupper : drawn < range.high.rank := by
          split_ifs at hdraw <;> omega
        simp [hmem, hupper]
    | true =>
        -- With neighbours for ends everything drawn falls on the lower one.
        simp only [hlower, true_and] at hdraw
        cases range.highExclusive <;> simp <;> split_ifs at hdraw <;> omega

/-! ### Draws and the bounds of constraints -/

/-- Of a bound that counts and one that is filled in without being reached, the first is what a
number satisfies. -/
theorem allows_span_iff (side : Side) {effective : Option Bound} {taken : Bound} {x : ℚ}
    (hsome : ∀ bound, effective = some bound → taken = bound)
    (hnone : effective = none → taken.exclusive = false ∧ side.Reaches taken.value.value x) :
    side.Allows effective x ↔ side.Allows (some taken) x := by
  cases effective with
  | none =>
      obtain ⟨hincluded, hreaches⟩ := hnone rfl
      rw [Side.allows_some_iff, hincluded]
      exact ⟨fun _ => hreaches, fun _ bound hbound => nomatch hbound⟩
  | some bound => rw [hsome bound rfl]

theorem span_lower (lower upper : Option Bound) :
    (∀ bound, lower = some bound → (span lower upper).1 = bound) ∧
      (lower = none → (span lower upper).1.exclusive = false) := by
  cases lower with
  | none =>
      refine ⟨by rintro _ ⟨⟩, fun _ => ?_⟩
      cases upper with
      | none => rfl
      | some high =>
          rw [span]
          split <;> rfl
  | some low =>
      refine ⟨fun bound hbound => ?_, by rintro ⟨⟩⟩
      cases hbound
      cases upper <;> rfl

theorem span_upper (lower upper : Option Bound) :
    (∀ bound, upper = some bound → (span lower upper).2 = bound) ∧
      (upper = none → (span lower upper).2.exclusive = false) := by
  cases upper with
  | none =>
      refine ⟨by rintro _ ⟨⟩, fun _ => ?_⟩
      cases lower <;> rfl
  | some high =>
      refine ⟨fun bound hbound => ?_, by rintro ⟨⟩⟩
      cases hbound
      cases lower with
      | none =>
          rw [span]
          split <;> rfl
      | some low => rfl

/-- Between the ends of its range a number satisfies the effective bounds of the constraints exactly
if the range contains it. -/
theorem allows_iff_contains (h : ofConstraints c = .ok range) (hx : x.isFinite = true)
    (hmem : range.low.rank ≤ x.rank ∧ x.rank ≤ range.high.rank) :
    Side.lower.Allows c.lower x.value ∧ Side.upper.Allows c.upper x.value ↔
      range.contains x = true := by
  obtain ⟨hdrawable, hrange⟩ := ofConstraints_eq_ok_iff.mp h
  obtain ⟨hlower, hlower'⟩ := span_lower c.lower c.upper
  obtain ⟨hupper, hupper'⟩ := span_upper c.lower c.upper
  generalize (span c.lower c.upper).1 = low at *
  generalize (span c.lower c.upper).2 = high at *
  subst hrange
  have hbelow : Side.lower.Allows c.lower x.value ↔ Side.lower.Allows (some low) x.value :=
    allows_span_iff .lower hlower fun hnone => ⟨hlower' hnone, value_le_iff_rank.mpr hmem.1⟩
  have habove : Side.upper.Allows c.upper x.value ↔ Side.upper.Allows (some high) x.value :=
    allows_span_iff .upper hupper fun hnone => ⟨hupper' hnone, value_le_iff_rank.mpr hmem.2⟩
  rw [hbelow, habove]
  exact (contains_iff hdrawable.low hdrawable.high hx).symm

/-- Every number drawn is finite and between the bounds. It satisfies the effective bounds of the
constraints, and its own leaf accepts it, exactly if a draw on the lower end finds a place in the
range. -/
theorem draw_allowed_iff (h : ofConstraints c = .ok range) (s : Source) :
    ∃ x, (range.leaf.generate s).1 = .ok (.float x) ∧ x.isFinite = true ∧
      range.low.value ≤ x.value ∧ x.value ≤ range.high.value ∧
      (Side.lower.Allows c.lower x.value ∧ Side.upper.Allows c.upper x.value ↔ range.HasRoom) ∧
      (range.leaf.validate (.float x) = some true ↔ range.HasRoom) := by
  have hdrawable := (ofConstraints_eq_ok_iff.mp h).1
  have hmem := rank_draw_mem hdrawable s
  have hfinite : (range.draw s).1.isFinite = true :=
    isFinite_of_rank_mem hdrawable.low hdrawable.high hmem.1 hmem.2
  refine ⟨(range.draw s).1, generate_leaf range s, hfinite, value_le_iff_rank.mpr hmem.1,
    value_le_iff_rank.mpr hmem.2, ?_, ?_⟩
  · rw [allows_iff_contains h hfinite hmem, contains_draw_iff hdrawable]
  · rw [validate_leaf_float, Option.some.injEq, contains_draw_iff hdrawable]

/-- The numbers above zero up to one. -/
def aboveZero : Constraints :=
  { Constraints.none with
    exclusiveMinimum := some (.bound zero)
    maximum := some (ofInt 1) }

theorem draw_allowed_iff_aboveZero : ∃ range, ofConstraints aboveZero = .ok range ∧ ∀ s, ∃ x,
    (range.leaf.generate s).1 = .ok (.float x) ∧ 0 < x.value ∧ x.value ≤ 1 ∧
      range.leaf.validate (.float x) = some true := by
  have hrange : ofConstraints aboveZero = .ok ⟨zero, ofInt 1, true, false⟩ := by decide +kernel
  have hroom : HasRoom ⟨zero, ofInt 1, true, false⟩ := by
    rw [hasRoom_iff_rank (ofConstraints_eq_ok_iff.mp hrange).1]
    exact .inr (.inl (by decide +kernel))
  refine ⟨_, hrange, fun s => ?_⟩
  obtain ⟨x, hx, -, -, hhigh, hallowed, haccepted⟩ := draw_allowed_iff hrange s
  have hlow : Side.lower.Passes zero.value x.value := (hallowed.mpr hroom).1 ⟨zero, true⟩ rfl
  rw [Side.Passes, Constraints.denotes_zero.value] at hlow
  have hone : (ofInt 1).Denotes 1 := denotes_ofInt_of_le (by decide)
  rw [hone.value] at hhigh
  exact ⟨x, hx, by exact_mod_cast hlow, by exact_mod_cast hhigh, haccepted.mpr hroom⟩

/-- The numbers above one up to the next double. -/
def nextToOne : Constraints :=
  { Constraints.none with
    exclusiveMinimum := some (.bound (ofInt 1))
    maximum := some ⟨0x3ff0000000000001⟩ }

theorem ofConstraints_nextToOne :
    ofConstraints nextToOne = .ok ⟨ofInt 1, ⟨0x3ff0000000000001⟩, true, false⟩ := by
  decide +kernel

/-- The excluded end is drawn, though the other end is a number that both bounds allow. -/
theorem exists_draw_excluded : ∃ range source x, ofConstraints nextToOne = .ok range ∧
    (range.leaf.generate source).1 = .ok (.float x) ∧ ¬ Side.lower.Allows nextToOne.lower x.value ∧
    range.leaf.validate (.float x) = some false ∧
    Side.lower.Allows nextToOne.lower range.high.value ∧
    Side.upper.Allows nextToOne.upper range.high.value := by
  have hdrawable := (ofConstraints_eq_ok_iff.mp ofConstraints_nextToOne).1
  have hdraw : (draw ⟨ofInt 1, ⟨0x3ff0000000000001⟩, true, false⟩ (.mixed [0] 1)).1 = ofInt 1 := by
    decide +kernel
  have hrefused : contains ⟨ofInt 1, ⟨0x3ff0000000000001⟩, true, false⟩ (ofInt 1) = false := by
    decide +kernel
  have hother : contains ⟨ofInt 1, ⟨0x3ff0000000000001⟩, true, false⟩ ⟨0x3ff0000000000001⟩ =
      true := by
    decide +kernel
  refine ⟨_, .mixed [0] 1, ofInt 1, ofConstraints_nextToOne, ?_, ?_, ?_, ?_⟩
  · rw [generate_leaf, hdraw]
  · intro hallowed
    exact lt_irrefl _ (hallowed ⟨ofInt 1, true⟩ rfl)
  · rw [validate_leaf_float, hrefused]
  · exact (allows_iff_contains ofConstraints_nextToOne hdrawable.high
      ⟨hdrawable.ordered, le_rfl⟩).mpr hother

end NumberRange

end Specimen
