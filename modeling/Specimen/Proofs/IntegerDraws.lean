import Specimen.Proofs.LeafValues

/-!
# Integers of a range

An integer leaf gives exactly what it accepts: every integer drawn lies in its range and on its step,
and every such integer is drawn from some source. For the second half a word is made up for each
number below the width of the range. What is computed on the way stays inside 64 bits, and a step
leaves nothing of a range only if none of its multiples lies there.
-/

namespace Specimen

namespace Draw

/-! ### Every number is drawn -/

/-- The word that just reaches a number is scaled to it: what is left over is less than the range, and
so it lies in the zone. -/
theorem exists_scale {width range n : Nat} (hn : n < range) (hrange : range ≤ 2 ^ width) :
    ∃ word < 2 ^ width, scale width range word = some n := by
  have hscaled : 1 ≤ 2 ^ (width - Double.bitLength range) := Nat.two_pow_pos _
  have hzone : range ≤ range * 2 ^ (width - Double.bitLength range) := Nat.le_mul_of_pos_right _ hscaled
  have hdivision := Nat.div_add_mod (n * 2 ^ width + range - 1) range
  have hrest := Nat.mod_lt (n * 2 ^ width + range - 1) (Nat.zero_lt_of_lt hn)
  generalize hword : (n * 2 ^ width + range - 1) / range = word at hdivision
  generalize (n * 2 ^ width + range - 1) % range = rest at hdivision hrest
  obtain ⟨excess, hexcess, hproduct⟩ : ∃ excess, excess < range ∧ word * range = excess + 2 ^ width * n := by
    refine ⟨word * range - 2 ^ width * n, ?_, ?_⟩ <;> rw [Nat.mul_comm] at hdivision <;> grind
  refine ⟨word, ?_, ?_⟩
  · have hfits : word * range < 2 ^ width * range := by
      have hnext : 2 ^ width * (n + 1) ≤ 2 ^ width * range := Nat.mul_le_mul_left _ hn
      rw [Nat.mul_succ] at hnext
      omega
    exact Nat.lt_of_mul_lt_mul_right hfits
  · have hlow : excess < 2 ^ width := by omega
    simp only [scale, Nat.pow_eq]
    rw [hproduct, Nat.add_mul_mod_self_left, Nat.mod_eq_of_lt hlow,
      Nat.add_mul_div_left _ _ (Nat.two_pow_pos width), Nat.div_eq_of_lt hlow, Nat.zero_add,
      if_pos (by omega)]

theorem exists_below64 {range n : Nat} (hn : n < range) (hrange : range ≤ 2 ^ 64) :
    ∃ s, (below64 range s).1 = n := by
  obtain ⟨word, hword, hscale⟩ := exists_scale hn hrange
  let s : Source := .mixed [UInt64.ofNat word] 0
  have hfirst : (word64 s).1 = word := UInt64.toNat_ofNat_of_lt hword
  obtain ⟨attempts, hattempts⟩ : ∃ attempts, s.patience = attempts + 1 :=
    ⟨0x10000000000000000, Nat.add_comm _ _⟩
  refine ⟨s, ?_⟩
  rw [below64, untilAccepted, hattempts, search_of_some (hfirst ▸ hscale)]

open Double in
theorem exists_intBetween {low high n : Int} (hlow : minInt64 ≤ low) (hhigh : high ≤ maxInt64)
    (hleast : low ≤ n) (hgreatest : n ≤ high) : ∃ s, (intBetween low high s).1 = n := by
  unfold minInt64 at hlow
  unfold maxInt64 at hhigh
  have hwidth : (high - low + 1).toNat ≤ 2 ^ 64 := by omega
  have hdraw (s : Source) : (intBetween low high s).1 =
      if high - low + 1 = 0x10000000000000000 then
        Int.bmod (below64 (high - low + 1).toNat s).1 0x10000000000000000
      else low + ((below64 (high - low + 1).toNat s).1 : Int) := rfl
  by_cases hall : high - low + 1 = 0x10000000000000000
  · -- A word is read as it is, so the residue of the number is drawn.
    have hbelow : (n % 0x10000000000000000).toNat < (high - low + 1).toNat := by omega
    obtain ⟨s, hs⟩ := exists_below64 hbelow hwidth
    have hresidue : ((n % 0x10000000000000000).toNat : Int) = n % (0x10000000000000000 : Nat) := by
      omega
    refine ⟨s, ?_⟩
    rw [hdraw, if_pos hall, hs, hresidue, Int.emod_bmod]
    exact Int.bmod_eq_of_le_mul_two (by omega) (by omega)
  · have hbelow : (n - low).toNat < (high - low + 1).toNat := by omega
    obtain ⟨s, hs⟩ := exists_below64 hbelow hwidth
    refine ⟨s, ?_⟩
    rw [hdraw, if_neg hall, hs]
    omega

end Draw

namespace IntegerRange

open Double

/-- An integer has 64 bits with a sign. -/
def Fits (n : Int) : Prop :=
  minInt64 ≤ n ∧ n ≤ maxInt64

instance (n : Int) : Decidable (Fits n) :=
  inferInstanceAs (Decidable (minInt64 ≤ n ∧ n ≤ maxInt64))

variable {range : IntegerRange} {c : Constraints} {n : Int}

theorem contains_iff : range.contains n = true ↔
    (range.min ≤ n ∧ n ≤ range.max) ∧ ∀ step, range.step = some step → step ∣ n := by
  rw [contains, Bool.and_eq_true, Bool.and_eq_true, decide_eq_true_iff, decide_eq_true_iff]
  cases range.step with
  | none => simp
  | some step =>
      simp only [decide_eq_true_eq, Option.some.injEq, forall_eq', Int.dvd_iff_emod_eq_zero]

theorem exists_draw (h : range.Drawable) (hn : range.contains n = true) :
    ∃ s, (range.draw s).1 = n := by
  obtain ⟨⟨hleast, hgreatest⟩, hmultiple⟩ := contains_iff.mp hn
  cases hstep : range.step with
  | none =>
      obtain ⟨s, hs⟩ := Draw.exists_intBetween h.low h.high hleast hgreatest
      exact ⟨s, by simpa only [draw, hstep] using hs⟩
  | some step =>
      obtain ⟨hpos, -⟩ := h.steps step hstep
      obtain ⟨factor, rfl⟩ := hmultiple step hstep
      rw [Int.mul_comm] at hleast hgreatest
      have hlow := (ceilDiv_mem h.low (Int.le_trans h.ordered h.high) hpos).1
      have hhigh := (ediv_mem (Int.le_trans h.low h.ordered) h.high hpos).2
      obtain ⟨s, hs⟩ := Draw.exists_intBetween hlow hhigh ((ceilDiv_le_iff hpos).mpr hleast)
        ((Int.le_ediv_iff_mul_le hpos).mpr hgreatest)
      exact ⟨s, by rw [draw_of_step hstep, hs, Int.mul_comm]⟩

/-! ### The leaf -/

theorem generate_leaf (range : IntegerRange) (s : Source) :
    range.leaf.generate s = (.ok (.int (range.draw s).1), (range.draw s).2) :=
  rfl

theorem validate_leaf (hn : Fits n) : range.leaf.validate (.int n) = some (range.contains n) := by
  have hpair : minInt64 ≤ n ∧ n ≤ maxInt64 := hn
  have hint : integer? (.int n) = some n := by
    rw [integer?, Json.int64?, if_pos hpair]
  simp only [leaf, hint]

/-! ### What is computed on the way -/

/-- All that is computed from the bounds and the step of a range, and from the integers that are
judged by it, has 64 bits. -/
structure StaysInside (min max step : Int) : Prop where
  quotient : Fits (min / step)
  remainder : ∀ n, Fits (n % step)
  least : Fits (ceilDiv min step)
  greatest : Fits (max / step)
  multiples : ∀ factor, ceilDiv min step ≤ factor → factor ≤ max / step →
    Fits factor ∧ Fits (factor * step)

theorem staysInside {min max step : Int} (hmin : Fits min) (hmax : Fits max) (hstep : Fits step)
    (hpos : 0 < step) : StaysInside min max step where
  quotient := ediv_mem hmin.1 hmin.2 hpos
  remainder n := by
    have hlow := Int.emod_nonneg n (Int.ne_of_gt hpos)
    have hhigh := Int.emod_lt_of_pos n hpos
    exact ⟨Int.le_trans (show minInt64 ≤ 0 by decide) hlow,
      Int.le_trans (Int.le_of_lt hhigh) hstep.2⟩
  least := ceilDiv_mem hmin.1 hmin.2 hpos
  greatest := ediv_mem hmax.1 hmax.2 hpos
  multiples factor hleast hgreatest :=
    ⟨⟨Int.le_trans (ceilDiv_mem hmin.1 hmin.2 hpos).1 hleast,
        Int.le_trans hgreatest (ediv_mem hmax.1 hmax.2 hpos).2⟩,
      ⟨Int.le_trans hmin.1 ((ceilDiv_le_iff hpos).mp hleast),
        Int.le_trans ((Int.le_ediv_iff_mul_le hpos).mp hgreatest) hmax.2⟩⟩

/-! ### Steps -/

/-- There are quotients to draw when a multiple lies between the bounds. -/
theorem ceilDiv_le_ediv_iff {min max step : Int} (hpos : 0 < step) :
    ceilDiv min step ≤ max / step ↔ ∃ n, min ≤ n ∧ n ≤ max ∧ step ∣ n := by
  constructor
  · intro h
    exact ⟨ceilDiv min step * step, (ceilDiv_le_iff hpos).mp (Int.le_refl _),
      (Int.le_ediv_iff_mul_le hpos).mp h, Int.dvd_mul_left _ _⟩
  · rintro ⟨_, hleast, hgreatest, factor, rfl⟩
    rw [Int.mul_comm] at hleast hgreatest
    exact Int.le_trans ((ceilDiv_le_iff hpos).mpr hleast)
      ((Int.le_ediv_iff_mul_le hpos).mpr hgreatest)

theorem exists_withStep_iff {step : Int} (hpos : 0 < step) :
    (∃ stepped, range.withStep step = .ok stepped) ↔
      ∃ n, range.min ≤ n ∧ n ≤ range.max ∧ step ∣ n := by
  rw [← ceilDiv_le_ediv_iff hpos]
  simp only [withStep, Outcome.check_eq_ok, exists_and_left, exists_eq', and_true, Int.not_lt]

theorem fits_of_stepOf {multiple : Double} {step : Int} (h : stepOf multiple = some step) :
    Fits step := by
  obtain ⟨k, -, hpos, rfl⟩ := exists_denotes_of_stepOf h
  have hleast : 1 ≤ Min.min k maxInt64 := Int.le_min.mpr ⟨hpos, by decide⟩
  exact ⟨Int.le_trans (by decide) hleast, Int.min_le_right _ _⟩

/-- Constraints are built without their step first. -/
theorem ofConstraints_eq (c : Constraints) : ofConstraints c =
    ofConstraints { c with multipleOf := none } >>= fun range =>
      match c.multipleOf.bind stepOf with
      | some step => range.withStep step
      | none => return range := by
  have hlower : ({ c with multipleOf := none } : Constraints).lower = c.lower := rfl
  have hupper : ({ c with multipleOf := none } : Constraints).upper = c.upper := rfl
  unfold ofConstraints
  rw [hlower, hupper, bind_assoc]
  refine bind_congr fun lower => ?_
  rw [bind_assoc]
  refine bind_congr fun upper => ?_
  rw [bind_assoc]
  exact bind_congr fun range => rfl

theorem step_of_ofConstraints (h : ofConstraints c = .ok range) :
    range.step = c.multipleOf.bind stepOf := by
  obtain ⟨lower, upper, -, -, -, -, rfl⟩ := ofConstraints_eq_ok.mp h
  rfl

/-- The leaf of a range gives the integers that it accepts and no others, and no integer on the way
leaves 64 bits. -/
structure Exact (range : IntegerRange) : Prop where
  ordered : range.min ≤ range.max
  sound : ∀ s, ∃ n t, range.leaf.generate s = (.ok (.int n), t) ∧
    (range.min ≤ n ∧ n ≤ range.max) ∧ (∀ step, range.step = some step → step ∣ n) ∧ range.leaf.validate (.int n) = some true
  complete : ∀ n, Fits n → range.leaf.validate (.int n) = some true →
    ∃ s t, range.leaf.generate s = (.ok (.int n), t)
  bounds : Fits range.min ∧ Fits range.max
  inside : ∀ step, range.step = some step → StaysInside range.min range.max step

theorem exact_of_ofConstraints (h : ofConstraints c = .ok range) : range.Exact := by
  have hrange := drawable_of_ofConstraints h
  have hmin : Fits range.min := ⟨hrange.low, Int.le_trans hrange.ordered hrange.high⟩
  have hmax : Fits range.max := ⟨Int.le_trans hrange.low hrange.ordered, hrange.high⟩
  refine ⟨hrange.ordered, ?_, ?_, ⟨hmin, hmax⟩, ?_⟩
  · intro s
    have hcontains := contains_draw hrange s
    obtain ⟨hbetween, hmultiple⟩ := contains_iff.mp hcontains
    have hfits : Fits (range.draw s).1 :=
      ⟨Int.le_trans hmin.1 hbetween.1, Int.le_trans hbetween.2 hmax.2⟩
    exact ⟨_, _, generate_leaf range s, hbetween, hmultiple, by rw [validate_leaf hfits, hcontains]⟩
  · intro n hn hvalid
    rw [validate_leaf hn, Option.some.injEq] at hvalid
    obtain ⟨s, rfl⟩ := exists_draw hrange hvalid
    exact ⟨s, _, generate_leaf range s⟩
  · intro step hstep
    have hread := step_of_ofConstraints h
    rw [hstep] at hread
    obtain ⟨multiple, -, hof⟩ := Option.bind_eq_some_iff.mp hread.symm
    exact staysInside hmin hmax (fits_of_stepOf hof) (stepOf_pos hof)

theorem exists_error_iff {x : Except PrimitiveError IntegerRange} :
    (∃ e, x = .error e) ↔ ¬ ∃ found, x = .ok found := by
  cases x <;> simp

/-- A step adds a failure to a range exactly when no multiple of it lies there. -/
theorem exists_error_of_step {multiple : Double} {step : Int}
    (hrange : ofConstraints { c with multipleOf := none } = .ok range)
    (hmultiple : c.multipleOf = some multiple) (hstep : multiple.Denotes step) (hpos : 1 ≤ step)
    (hfits : step ≤ maxInt64) : (∃ e, ofConstraints c = .error e) ↔
      ¬ ∃ n, range.min ≤ n ∧ n ≤ range.max ∧ step ∣ n := by
  rw [← exists_withStep_iff hpos, exists_error_iff, ofConstraints_eq, hrange, hmultiple,
    Option.bind_some, stepOf_of_denotes hstep hpos, Int.min_eq_left hfits]
  rfl

/-- The integers of constraints that can be met are given exactly, and a whole step between 1 and
`2 ^ 63` keeps constraints from being met only if no multiple of it lies between the bounds. -/
theorem exact_and_exists_error_iff :
    (∀ c range, ofConstraints c = .ok range → range.Exact) ∧
    ∀ c range multiple step, ofConstraints { c with multipleOf := none } = .ok range →
      c.multipleOf = some multiple → multiple.Denotes step → 1 ≤ step → step ≤ maxInt64 →
      ((∃ e, ofConstraints c = .error e) ↔ ¬ ∃ n, range.min ≤ n ∧ n ≤ range.max ∧ step ∣ n) :=
  ⟨fun _ _ h => exact_of_ofConstraints h,
    fun _ _ _ _ hrange hmultiple hstep hpos hfits =>
      exists_error_of_step hrange hmultiple hstep hpos hfits⟩

/-- All integers of 64 bits, with a step that has three multiples among them. -/
def widest : Constraints :=
  { Constraints.none with
    minimum := some (Double.ofInt (-0x8000000000000000))
    maximum := some (Double.ofInt 0x8000000000000000)
    multipleOf := some (Double.ofInt 0x6000000000000000) }

/-- No multiple of ten lies between one and five. -/
def unmet : Constraints :=
  { Constraints.none with
    minimum := some (Double.ofInt 1), maximum := some (Double.ofInt 5)
    multipleOf := some (Double.ofInt 10) }

theorem exact_widest_and_exists_error_unmet :
    IntegerRange.Exact ⟨minInt64, maxInt64, some 0x6000000000000000⟩ ∧
      ((∃ e, ofConstraints unmet = .error e) ↔ ¬ ∃ n : Int, 1 ≤ n ∧ n ≤ 5 ∧ 10 ∣ n) :=
  ⟨exact_and_exists_error_iff.1 widest _ (by decide +kernel),
    exact_and_exists_error_iff.2 unmet ⟨1, 5, none⟩ (Double.ofInt 10) 10 (by decide +kernel) rfl
      (denotes_ofInt_of_le (by decide)) (by decide) (by decide)⟩

end IntegerRange

end Specimen
