import Specimen.Proofs.BoundEdges
import Specimen.Proofs.EffectiveBounds
import Specimen.Proofs.Filling

/-!
# Keywords that are kept

A value keeps a keyword either as it is written or as it is read, and the two differ where a number in
the keyword has no double. What keeps the keywords of a node as they are read satisfies the
constraints that are read from it: the effective bounds, the step of an integer range and the lengths.
-/

namespace Specimen

namespace Json

/-! ### Keywords that are kept -/

/-- The number that a value is. -/
def written? : Json → Option ℚ
  | .int n => some n
  | .float x => some x.value
  | _ => none

/-- The number that a value is read as. -/
def read? (value : Json) : Option ℚ :=
  value.double?.map Double.value

/-- A number keeps the bounds on one side: it reaches the inclusive one, passes it if that is marked
as exclusive, and passes an exclusive one. -/
structure KeepsSide (number? : Json → Option ℚ) (side : Side) (inclusive exclusive : Option Json)
    (x : ℚ) : Prop where
  reaches : ∀ bound, inclusive.bind number? = some bound → side.Reaches bound x
  marked : ∀ bound, inclusive.bind number? = some bound → exclusive = some (.bool true) →
    side.Passes bound x
  passes : ∀ bound, exclusive.bind number? = some bound → side.Passes bound x

/-- A number keeps the bounds of a node. -/
structure KeepsBounds (number? : Json → Option ℚ) (node : Json) (x : ℚ) : Prop where
  lower : KeepsSide number? .lower (node.value? "minimum") (node.value? "exclusiveMinimum") x
  upper : KeepsSide number? .upper (node.value? "maximum") (node.value? "exclusiveMaximum") x

/-- A number is a multiple of the `multipleOf` of a node. -/
def KeepsMultiple (number? : Json → Option ℚ) (node : Json) (x : ℚ) : Prop :=
  ∀ multiple, (node.value? "multipleOf").bind number? = some multiple →
    ∃ factor : Int, x = factor * multiple

/-- A count lies between the two counts of a node under these keywords. -/
structure KeepsCounts (node : Json) (least greatest : String) (count : Nat) : Prop where
  least : ∀ n : Int, node.value? least = some (.int n) → n ≤ count
  greatest : ∀ n : Int, node.value? greatest = some (.int n) → count ≤ n

section Missing

variable {number? : Json → Option ℚ} {side : Side} {inclusive exclusive : Option Json} {x : ℚ}
  {node : Json}

theorem KeepsSide.of_inclusive
    (h : ∀ bound, inclusive.bind number? = some bound → side.Reaches bound x) :
    KeepsSide number? side inclusive none x where
  reaches := h
  marked := by rintro _ _ ⟨⟩
  passes := by rintro _ ⟨⟩

theorem KeepsSide.of_exclusive
    (h : ∀ bound, exclusive.bind number? = some bound → side.Passes bound x) :
    KeepsSide number? side none exclusive x where
  reaches := by rintro _ ⟨⟩
  marked := by rintro _ ⟨⟩
  passes := h

theorem keepsSide_none : KeepsSide number? side none none x :=
  .of_inclusive (by rintro _ ⟨⟩)

theorem keepsMultiple_of_none (h : node.value? "multipleOf" = none) :
    KeepsMultiple number? node x := by
  intro multiple hread
  rw [h] at hread
  cases hread

theorem keepsCounts_of_none {least greatest : String} {count : Nat}
    (hleast : node.value? least = none) (hgreatest : node.value? greatest = none) :
    KeepsCounts node least greatest count where
  least n hread := by
    rw [hleast] at hread
    cases hread
  greatest n hread := by
    rw [hgreatest] at hread
    cases hread

end Missing

end Json

/-! ### Keywords that are read -/

section Reading

open Constraints Json

variable {node value : Json} {found : Option Json} {key other : String} {c : Constraints}
  {side : Side} {inclusive exclusive : Option Json} {low : Option Double} {mark : Option Exclusive}
  {bound : Bound} {x : Double}

theorem Json.get?_of_value? (h : node.value? key = some value) : node.get? key = some value := by
  rw [value?] at h
  cases hget : node.get? key with
  | none =>
      rw [hget] at h
      cases h
  | some member =>
      rw [hget] at h
      cases member <;> cases h <;> rfl

theorem Json.isFinite_of_double? (hwell : value.WellFormed) (h : value.double? = some x) :
    x.isFinite = true := by
  cases value with
  | int n =>
      cases h
      obtain ⟨hlow, hhigh⟩ := hwell
      unfold Double.minInt64 at hlow
      exact (Double.denotes_nearest (by omega)).finite
  | float y =>
      cases h
      exact hwell
  | null | bool | str | arr | obj => cases h

/-- What a keyword for a number is read as. -/
theorem Constraints.Sets.double?_eq (h : Sets readNumber found .none (some x)) :
    ∃ value, found = some value ∧ value.double? = some x := by
  cases found with
  | none => cases h
  | some value =>
      refine ⟨value, rfl, ?_⟩
      change readNumber value = .ok (some x) at h
      cases value <;> cases h <;> rfl

theorem Constraints.Sets.bound_eq (h : Sets readExclusive found .none (some (.bound x))) :
    ∃ value, found = some value ∧ value.double? = some x := by
  cases found with
  | none => cases h
  | some value =>
      refine ⟨value, rfl, ?_⟩
      change readExclusive value = .ok (some (.bound x)) at h
      cases value <;> cases h <;> rfl

theorem Constraints.Sets.flag_eq (h : Sets readExclusive found .none (some (.flag true))) :
    found = some (.bool true) := by
  cases found with
  | none => cases h
  | some value =>
      change readExclusive value = .ok (some (.flag true)) at h
      cases value <;> cases h
      rfl

theorem Json.bind_read?_eq (h : ∃ value, found = some value ∧ value.double? = some x) :
    found.bind read? = some x.value := by
  obtain ⟨value, rfl, hx⟩ := h
  rw [Option.bind_some, read?, hx, Option.map_some]

theorem Json.KeepsSide.obeys {q : ℚ} (h : KeepsSide read? side inclusive exclusive q)
    (hlow : Sets readNumber inclusive .none low) (hmark : Sets readExclusive exclusive .none mark) :
    side.Obeys low mark q where
  reaches := by
    rintro bound rfl
    exact h.reaches _ (bind_read?_eq hlow.double?_eq)
  marked := by
    rintro bound rfl rfl
    exact h.marked _ (bind_read?_eq hlow.double?_eq) hmark.flag_eq
  passes := by
    rintro bound rfl
    exact h.passes _ (bind_read?_eq hmark.bound_eq)

theorem Side.isFinite_of_bound (side : Side) (h : Side.Finite low mark)
    (hbound : Constraints.bound low mark side.stricter = some bound) :
    bound.value.isFinite = true := by
  rcases low with _ | low <;> rcases mark with _ | flag | limit <;> cases hbound
  · exact h.exclusive limit rfl
  · exact h.inclusive low rfl
  · exact h.inclusive low rfl
  · have hlow := h.inclusive low rfl
    have hlimit := h.exclusive limit rfl
    by_cases hpasses : side.Passes limit.value low.value
    · rw [Side.stricter_of_passes hlow hlimit hpasses]
      exact hlow
    · rw [Side.stricter_of_not_passes hlow hlimit hpasses]
      exact hlimit

theorem Json.WellFormed.finite (hwell : node.WellFormed)
    (hlow : Sets readNumber (node.value? key) .none low)
    (hmark : Sets readExclusive (node.value? other) .none mark) : Side.Finite low mark where
  inclusive := by
    rintro bound rfl
    obtain ⟨value, hvalue, hx⟩ := hlow.double?_eq
    exact isFinite_of_double? (hwell.get? (get?_of_value? hvalue)) hx
  exclusive := by
    rintro bound rfl
    obtain ⟨value, hvalue, hx⟩ := hmark.bound_eq
    exact isFinite_of_double? (hwell.get? (get?_of_value? hvalue)) hx

theorem Constraints.isFinite_of_ofNode (hwell : node.WellFormed) (hread : ofNode node = .ok c)
    (h : c.lower = some bound ∨ c.upper = some bound) : bound.value.isFinite = true := by
  have hreads := reads_value? hwell hread
  rcases h with hlower | hupper
  · exact Side.lower.isFinite_of_bound
      (hwell.finite hreads.minimum hreads.exclusiveMinimum) hlower
  · exact Side.upper.isFinite_of_bound
      (hwell.finite hreads.maximum hreads.exclusiveMaximum) hupper

/-- What keeps the bounds of a node as they are read is allowed by the effective bounds. -/
theorem Json.KeepsBounds.allows {q : ℚ} (h : node.KeepsBounds read? q) (hwell : node.WellFormed)
    (hread : ofNode node = .ok c) :
    Side.lower.Allows c.lower q ∧ Side.upper.Allows c.upper q := by
  have hreads := reads_value? hwell hread
  have hlower := hwell.finite hreads.minimum hreads.exclusiveMinimum
  have hupper := hwell.finite hreads.maximum hreads.exclusiveMaximum
  exact ⟨(Side.allows_bound_iff hlower).mpr (h.lower.obeys hreads.minimum hreads.exclusiveMinimum),
    (Side.allows_bound_iff hupper).mpr (h.upper.obeys hreads.maximum hreads.exclusiveMaximum)⟩

/-- A count that is read stands in its node. -/
theorem Constraints.Sets.count_eq {n : Nat} (h : Sets readCount found .none (some n)) :
    found = some (.int n) := by
  cases found with
  | none => cases h
  | some value =>
      change readCount value = .ok (some n) at h
      cases value with
      | int m =>
          simp only [readCount] at h
          split_ifs at h with hsign
          cases h
          rw [Int.toNat_of_nonneg (Int.not_lt.mp hsign)]
      | null | bool | float | str | arr | obj => cases h

theorem Json.KeepsCounts.keeps {least greatest : String} {min max : Option Nat} {count : Nat}
    (h : node.KeepsCounts least greatest count)
    (hmin : Sets readCount (node.value? least) .none min)
    (hmax : Sets readCount (node.value? greatest) .none max) : Lengths.Keeps min max count where
  least := by
    rintro bound rfl
    exact Int.ofNat_le.mp (h.least _ hmin.count_eq)
  greatest := by
    rintro bound rfl
    exact Int.ofNat_le.mp (h.greatest _ hmax.count_eq)

/-- A multiple of the `multipleOf` as it is read is one of the step taken, unless the step is beyond
64 bits and the integer the least of them. -/
theorem Json.KeepsMultiple.dvd {n step : Int} {multiple : Double} (h : node.KeepsMultiple read? n)
    (hwell : node.WellFormed) (hread : ofNode node = .ok c) (hn : IntegerRange.Fits n)
    (hlarge : n = Double.minInt64 → multiple.value < 2 ^ 63)
    (hmultiple : c.multipleOf = some multiple)
    (hstep : IntegerRange.stepOf multiple = some step) : step ∣ n := by
  have hset := (reads_value? hwell hread).multipleOf
  rw [hmultiple] at hset
  obtain ⟨factor, hfactor⟩ := h _ (bind_read?_eq hset.double?_eq)
  rcases lt_or_ge multiple.value (2 ^ 63) with hsmall | hbeyond
  · exact IntegerRange.dvd_of_stepOf hstep hsmall hfactor
  · -- Of the multiples of such a number only zero is left.
    obtain ⟨k, hk, -, -⟩ := IntegerRange.exists_denotes_of_stepOf hstep
    rw [hk.value] at hfactor hbeyond
    have hproduct : n = factor * k := by exact_mod_cast hfactor
    have hleast : n ≠ Double.minInt64 := by
      rintro hn'
      have hsmall := hlarge hn'
      rw [hk.value] at hsmall
      exact absurd hbeyond (not_le.mpr hsmall)
    have hk' : (2 : Int) ^ 63 ≤ k := by exact_mod_cast hbeyond
    have hsize : |n| < k := by
      obtain ⟨hlow, hhigh⟩ := hn
      unfold Double.minInt64 at hlow hleast
      unfold Double.maxInt64 at hhigh
      rw [abs_lt]
      omega
    rw [Int.eq_zero_of_abs_lt_dvd ⟨factor, by rw [hproduct, Int.mul_comm]⟩ hsize]
    exact dvd_zero step

end Reading

end Specimen
