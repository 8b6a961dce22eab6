import Mathlib.Algebra.Order.Field.Basic
import Specimen.Primitive.Number
import Specimen.Proofs.ExactValues

/-!
# Effective bounds

The keywords of one side are read together as one bound, which leaves exactly the numbers that keep
each of them. Where an inclusive and an exclusive bound are both numbers, the one further inside
counts; of two equal ones, both zeros included, it is the exclusive one. Lower and upper bounds are
treated at once: on either side a number reaches a bound or passes it.
-/

namespace Specimen

namespace Double

/-! ### Doubles in the order of their values -/

section Values

variable {x y : Double}

theorem value_le_value_iff : x.value ≤ y.value ↔ x.units ≤ y.units := by
  have hone : (0 : ℚ) < one := by exact_mod_cast one_pos
  rw [value, value, div_le_div_iff_of_pos_right hone, Int.cast_le]

theorem le_iff_value (hx : x.isFinite = true) (hy : y.isFinite = true) :
    x.le y = true ↔ x.value ≤ y.value := by
  rw [le_iff hx hy, value_le_value_iff]

theorem lt_iff_value (hx : x.isFinite = true) (hy : y.isFinite = true) :
    x.lt y = true ↔ x.value < y.value := by
  rw [lt_iff hx hy, ← Int.not_le, ← value_le_value_iff, not_le]

theorem equal_iff_value (hx : x.isFinite = true) (hy : y.isFinite = true) :
    x.equal y = true ↔ x.value = y.value := by
  calc
    x.equal y = true ↔ x.rank = y.rank := by
      simp [equal, isNaN_of_isFinite hx, isNaN_of_isFinite hy]
    _ ↔ x.rank ≤ y.rank ∧ y.rank ≤ x.rank := le_antisymm_iff
    _ ↔ x.value ≤ y.value ∧ y.value ≤ x.value := by
      rw [value_le_value_iff, value_le_value_iff, units_le_iff, units_le_iff]
    _ ↔ x.value = y.value := le_antisymm_iff.symm

end Values

end Double

/-- The two sides on which numbers are bounded. -/
inductive Side where
  | lower
  | upper

namespace Side

/-- A number is not outside of a bound. -/
def Reaches : Side → ℚ → ℚ → Prop
  | .lower, bound, x => bound ≤ x
  | .upper, bound, x => x ≤ bound

/-- A number is inside of a bound and differs from it. -/
def Passes : Side → ℚ → ℚ → Prop
  | .lower, bound, x => bound < x
  | .upper, bound, x => x < bound

/-- The bound further inside. -/
def stricter : Side → Double → Double → Double
  | .lower => Double.max
  | .upper => Double.min

/-- A number satisfies an effective bound, if there is one. -/
def Allows (side : Side) (effective : Option Bound) (x : ℚ) : Prop :=
  ∀ bound, effective = some bound →
    if bound.exclusive then side.Passes bound.value.value x else side.Reaches bound.value.value x

/-- A number keeps everything that is written about a side: it reaches the inclusive bound, passes
it if that is marked as exclusive, and passes an exclusive bound. A mark without a bound asks for
nothing. -/
structure Obeys (side : Side) (inclusive : Option Double) (exclusive : Option Exclusive) (x : ℚ) :
    Prop where
  reaches : ∀ bound, inclusive = some bound → side.Reaches bound.value x
  marked : ∀ bound, inclusive = some bound → exclusive = some (.flag true) →
    side.Passes bound.value x
  passes : ∀ bound, exclusive = some (.bound bound) → side.Passes bound.value x

/-- The bounds that are written about a side are numbers. -/
structure Finite (inclusive : Option Double) (exclusive : Option Exclusive) : Prop where
  inclusive : ∀ bound, inclusive = some bound → bound.isFinite = true
  exclusive : ∀ bound, exclusive = some (.bound bound) → bound.isFinite = true

section Order

variable {side : Side} {a b x : ℚ}

theorem reaches_of_passes (h : side.Passes b x) : side.Reaches b x := by
  cases side <;> exact le_of_lt h

theorem Passes.trans_reaches (hab : side.Passes a b) (hbx : side.Reaches b x) :
    side.Passes a x := by
  cases side with
  | lower => exact lt_of_lt_of_le hab hbx
  | upper => exact lt_of_le_of_lt hbx hab

theorem Passes.reaches_of_not_passes (hax : side.Passes a x) (hab : ¬ side.Passes a b) :
    side.Reaches b x := by
  cases side with
  | lower => exact (not_lt.mp hab).trans (le_of_lt hax)
  | upper => exact (le_of_lt hax).trans (not_lt.mp hab)

theorem ne_of_passes (h : side.Passes a b) : b ≠ a := by
  cases side with
  | lower => exact ne_of_gt h
  | upper => exact ne_of_lt h

end Order

section Bounds

variable {side : Side} {inclusive : Option Double} {exclusive : Option Exclusive}
  {bound limit : Double} {x : ℚ}

theorem stricter_of_passes (hbound : bound.isFinite = true) (hlimit : limit.isFinite = true)
    (h : side.Passes limit.value bound.value) : side.stricter bound limit = bound := by
  cases side with
  | lower => simp [stricter, Double.max, (Double.lt_iff_value hlimit hbound).mpr h]
  | upper => simp [stricter, Double.min, (Double.lt_iff_value hbound hlimit).mpr h]

theorem stricter_of_not_passes (hbound : bound.isFinite = true) (hlimit : limit.isFinite = true)
    (h : ¬ side.Passes limit.value bound.value) : side.stricter bound limit = limit := by
  have hnumber : limit.isNaN = false := Double.isNaN_of_isFinite hlimit
  cases side with
  | lower => simp [stricter, Double.max, hnumber, mt (Double.lt_iff_value hlimit hbound).mp h]
  | upper => simp [stricter, Double.min, hnumber, mt (Double.lt_iff_value hbound hlimit).mp h]

theorem allows_some_iff {found : Bound} :
    side.Allows (some found) x ↔
      if found.exclusive then side.Passes found.value.value x
      else side.Reaches found.value.value x := by
  simp only [Allows, Option.some.injEq, forall_eq']

/-- Of two numbers the stricter one leaves what both leave, and excludes itself when it is the
exclusive one. -/
theorem allows_stricter_iff (hbound : bound.isFinite = true) (hlimit : limit.isFinite = true) :
    side.Allows (some ⟨side.stricter bound limit, (side.stricter bound limit).equal limit⟩) x ↔
      side.Reaches bound.value x ∧ side.Passes limit.value x := by
  rw [allows_some_iff]
  by_cases hinside : side.Passes limit.value bound.value
  · have hdiffers : bound.equal limit = false := by
      rw [Bool.eq_false_iff, Ne, Double.equal_iff_value hbound hlimit]
      exact ne_of_passes hinside
    simp only [stricter_of_passes hbound hlimit hinside, hdiffers, Bool.false_eq_true, if_false]
    exact ⟨fun h => ⟨h, hinside.trans_reaches h⟩, And.left⟩
  · have hsame : limit.equal limit = true := (Double.equal_iff_value hlimit hlimit).mpr rfl
    simp only [stricter_of_not_passes hbound hlimit hinside, hsame, if_true]
    exact ⟨fun h => ⟨h.reaches_of_not_passes hinside, h⟩, And.right⟩

theorem allows_bound_iff (h : Finite inclusive exclusive) :
    side.Allows (Constraints.bound inclusive exclusive side.stricter) x ↔
      side.Obeys inclusive exclusive x := by
  cases inclusive with
  | none =>
      rcases exclusive with _ | flag | limit
      · exact ⟨fun _ => ⟨by simp, by simp, by simp⟩, fun _ => by simp [Allows, Constraints.bound]⟩
      · exact ⟨fun _ => ⟨by simp, by simp, by simp⟩, fun _ => by simp [Allows, Constraints.bound]⟩
      · rw [Constraints.bound, allows_some_iff, if_pos rfl]
        exact ⟨fun h => ⟨by simp, by simp, by simpa using h⟩, fun h => h.passes limit rfl⟩
  | some bound =>
      rcases exclusive with _ | flag | limit
      · rw [Constraints.bound, allows_some_iff]
        exact ⟨fun h => ⟨by simpa using h, by simp, by simp⟩, fun h => h.reaches bound rfl⟩
      · rw [Constraints.bound, allows_some_iff]
        cases flag with
        | false =>
            exact ⟨fun h => ⟨by simpa using h, by simp, by simp⟩, fun h => h.reaches bound rfl⟩
        | true =>
            rw [if_pos rfl]
            exact ⟨fun h => ⟨by simpa using reaches_of_passes h, by simpa using h, by simp⟩,
              fun h => h.marked bound rfl rfl⟩
      · rw [Constraints.bound, allows_stricter_iff (h.inclusive bound rfl) (h.exclusive limit rfl)]
        exact ⟨fun h => ⟨by simpa using h.1, by simp, by simpa using h.2⟩,
          fun h => ⟨h.reaches bound rfl, h.passes limit rfl⟩⟩

end Bounds

end Side

namespace NumberRange

variable {c : Constraints} {low high : Bound} {range : NumberRange} {x : Double}

theorem ofConstraints_eq_ok (hlower : c.lower = some low) (hupper : c.upper = some high)
    (h : ofConstraints c = .ok range) :
    low.value.isFinite = true ∧ high.value.isFinite = true ∧
      range = ⟨low.value, high.value, low.exclusive, high.exclusive⟩ := by
  simp only [ofConstraints, hlower, hupper, span, isEmpty] at h
  split at h
  next => cases h
  next hinhabited =>
    simp only [Bool.or_eq_true, Bool.not_eq_true', not_or, Bool.not_eq_false] at hinhabited
    cases h
    exact ⟨hinhabited.1.2, hinhabited.2, rfl⟩

theorem contains_iff (hlow : low.value.isFinite = true) (hhigh : high.value.isFinite = true)
    (hx : x.isFinite = true) :
    contains ⟨low.value, high.value, low.exclusive, high.exclusive⟩ x = true ↔
      Side.lower.Allows (some low) x.value ∧ Side.upper.Allows (some high) x.value := by
  rw [contains, Bool.and_eq_true, Side.allows_some_iff, Side.allows_some_iff]
  apply and_congr
  · cases low.exclusive with
    | false => exact Double.le_iff_value hlow hx
    | true => exact Double.lt_iff_value hlow hx
  · cases high.exclusive with
    | false => exact Double.le_iff_value hx hhigh
    | true => exact Double.lt_iff_value hx hhigh

theorem validate_eq_some_true_iff {value : Json} (hvalue : value.double? = some x) :
    range.leaf.validate value = some true ↔ range.contains x = true := by
  simp only [leaf, hvalue, Option.some.injEq]

end NumberRange

namespace Constraints

/-- What is written about both sides is met by the numbers that satisfy the effective bounds, and a
number leaf with two bounds accepts exactly the doubles among them. -/
theorem allows_iff_obeys {c : Constraints} (hlower : Side.Finite c.minimum c.exclusiveMinimum)
    (hupper : Side.Finite c.maximum c.exclusiveMaximum) :
    (∀ x, Side.lower.Allows c.lower x ↔ Side.lower.Obeys c.minimum c.exclusiveMinimum x) ∧
    (∀ x, Side.upper.Allows c.upper x ↔ Side.upper.Obeys c.maximum c.exclusiveMaximum x) ∧
    ∀ low high range, c.lower = some low → c.upper = some high →
      NumberRange.ofConstraints c = .ok range →
      ∀ value x, Json.double? value = some x → x.isFinite = true →
        (range.leaf.validate value = some true ↔
          Side.lower.Obeys c.minimum c.exclusiveMinimum x.value ∧
            Side.upper.Obeys c.maximum c.exclusiveMaximum x.value) := by
  have hbelow (x : ℚ) : Side.lower.Allows c.lower x ↔
      Side.lower.Obeys c.minimum c.exclusiveMinimum x := Side.allows_bound_iff hlower
  have habove (x : ℚ) : Side.upper.Allows c.upper x ↔
      Side.upper.Obeys c.maximum c.exclusiveMaximum x := Side.allows_bound_iff hupper
  refine ⟨hbelow, habove, ?_⟩
  intro low high range hlow hhigh hrange value x hvalue hx
  obtain ⟨hlowFinite, hhighFinite, rfl⟩ := NumberRange.ofConstraints_eq_ok hlow hhigh hrange
  rw [NumberRange.validate_eq_some_true_iff hvalue,
    NumberRange.contains_iff hlowFinite hhighFinite hx, ← hlow, ← hhigh, hbelow, habove]

/-- Zero as an inclusive lower bound beside the other zero as an exclusive one, and ten marked as an
exclusive upper bound. -/
def tied : Constraints :=
  { none with
    minimum := some Double.zero
    exclusiveMinimum := some (.bound Double.zero.neg)
    maximum := some (Double.ofInt 10)
    exclusiveMaximum := some (.flag true) }

theorem denotes_zero : Double.zero.Denotes 0 :=
  ⟨by decide, by decide +kernel⟩

theorem obeys_lower_tied (x : ℚ) :
    Side.lower.Obeys tied.minimum tied.exclusiveMinimum x ↔ 0 < x := by
  have hvalue : Double.zero.neg.value = 0 := denotes_zero.neg.value
  constructor
  · intro h
    rw [← hvalue]
    exact h.passes _ rfl
  · intro h
    refine ⟨?_, by simp [tied], ?_⟩
    · simpa [tied, Side.Reaches, denotes_zero.value] using h.le
    · simpa [tied, Side.Passes, hvalue] using h

theorem obeys_upper_tied (x : ℚ) :
    Side.upper.Obeys tied.maximum tied.exclusiveMaximum x ↔ x < 10 := by
  have hten : (Double.ofInt 10).Denotes 10 := Double.denotes_ofInt_of_le (by decide)
  have hvalue : (Double.ofInt 10).value = 10 := hten.value
  constructor
  · intro h
    rw [← hvalue]
    exact h.marked _ rfl rfl
  · intro h
    refine ⟨?_, ?_, by simp [tied]⟩
    · simpa [tied, Side.Reaches, hvalue] using h.le
    · simpa [tied, Side.Passes, hvalue] using h

/-- Numbers between zero and ten, both left out, meet the tied bounds and are accepted. -/
theorem allows_iff_obeys_tied :
    (∀ x, Side.lower.Allows tied.lower x ↔ 0 < x) ∧ (∀ x, Side.upper.Allows tied.upper x ↔ x < 10) ∧
      ∃ range, NumberRange.ofConstraints tied = .ok range ∧ ∀ x : Double, x.isFinite = true →
        (range.leaf.validate (.float x) = some true ↔ 0 < x.value ∧ x.value < 10) := by
  have hlower : Side.Finite tied.minimum tied.exclusiveMinimum :=
    ⟨by simp [tied, denotes_zero.finite], by simp [tied, denotes_zero.neg.finite]⟩
  have hupper : Side.Finite tied.maximum tied.exclusiveMaximum := by
    have hten : (Double.ofInt 10).Denotes 10 := Double.denotes_ofInt_of_le (by decide)
    exact ⟨by simp [tied, hten.finite], by simp [tied]⟩
  obtain ⟨hbelow, habove, haccepts⟩ := allows_iff_obeys hlower hupper
  refine ⟨fun x => (hbelow x).trans (obeys_lower_tied x),
    fun x => (habove x).trans (obeys_upper_tied x),
    ⟨Double.zero.neg, Double.ofInt 10, true, true⟩, by decide +kernel, fun x hx => ?_⟩
  rw [haccepts ⟨Double.zero.neg, true⟩ ⟨Double.ofInt 10, true⟩ _ (by decide +kernel)
    (by decide +kernel) (by decide +kernel) _ x rfl hx, obeys_lower_tied, obeys_upper_tied]

end Constraints

end Specimen
