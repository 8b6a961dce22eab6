import Specimen.Proofs.Filling
import Specimen.Proofs.IntegerEdges
import Specimen.Proofs.NumberDraws

/-!
# Ends that are filled in

Every range has two ends, also where a side of the constraints has no bound, and a leaf asks for both
when it judges a value. Among the values that satisfy the constraints it therefore accepts those that
lie within the ends that are filled in. For integers this is said of those that rounding spares: next
to a large excluded bound the next integer may have no double.
-/

namespace Specimen

/-! ### Integers -/

namespace IntegerRange

open Double

/-- An integer is not outside of an end that is filled in. Without any bound the range is from zero to
the default span; with one bound it ends the default span from the outermost integer of 64 bits that
this allows, or at zero when an upper bound allows that. -/
def WithinDefaults (c : Constraints) (n : Int) : Prop :=
  match c.lower, c.upper with
  | some _, some _ => True
  | some low, none => n ≤ clamp (Side.lower.outermost low) + defaultSpan
  | none, some high =>
      if 0 ≤ clamp (Side.upper.outermost high) then 0 ≤ n
      else clamp (Side.upper.outermost high) - defaultSpan ≤ n
  | none, none => 0 ≤ n ∧ n ≤ defaultSpan

/-- Rounding does not bear on whether an integer is in a range: no large excluded bound cuts it off,
and where an end is filled in the integer next inside the bound is a double. -/
structure Spared (c : Constraints) (n : Int) : Prop where
  lower : Side.lower.Clears c.lower n
  upper : Side.upper.Clears c.upper n
  least : c.upper = none → Side.lower.Exact c.lower
  greatest : c.lower = none → Side.upper.Exact c.upper

variable {c : Constraints} {range : IntegerRange} {low high bound : Bound} {k n : Int}

theorem le_clamp_iff (hn : Fits n) (hk : minInt64 ≤ k) : n ≤ clamp k ↔ n ≤ k := by
  have hhigh := hn.2
  unfold clamp
  split_ifs <;> omega

theorem clamp_le_iff (hn : Fits n) (hk : k ≤ maxInt64) : clamp k ≤ n ↔ k ≤ n := by
  have hlow := hn.1
  unfold clamp
  split_ifs <;> omega

/-! ### Limits that bounds mean -/

theorem min_le_iff (h : ofConstraints c = .ok range) (hlower : c.lower = some bound)
    (hfinite : bound.value.isFinite = true) (hn : Fits n) (hallows : Side.lower.Allows c.lower n) :
    range.min ≤ n ↔ Side.lower.Clears c.lower n := by
  have hleast := least_of_ofConstraints h hlower
  rw [hlower] at hallows ⊢
  rw [least_le_iff hfinite hleast hn, Side.reaches_outermost_iff hfinite hallows]

theorem le_max_iff (h : ofConstraints c = .ok range) (hupper : c.upper = some bound)
    (hfinite : bound.value.isFinite = true) (hn : Fits n) (hallows : Side.upper.Allows c.upper n) :
    n ≤ range.max ↔ Side.upper.Clears c.upper n := by
  have hgreatest := greatest_of_ofConstraints h hupper
  rw [hupper] at hallows ⊢
  rw [le_greatest_iff hfinite hgreatest hn, Side.reaches_outermost_iff hfinite hallows]

/-- The range begins at the outermost integer that its lower bound allows. -/
theorem min_eq_clamp (h : ofConstraints c = .ok range) (hlower : c.lower = some low)
    (hfinite : low.value.isFinite = true) (hexact : Side.lower.Exact c.lower) :
    range.min = clamp (Side.lower.outermost low) := by
  have hdrawable := drawable_of_ofConstraints h
  have hmin : Fits range.min := ⟨hdrawable.low, hdrawable.ordered.trans hdrawable.high⟩
  have hreaches {n : Int} (hn : Fits n) : range.min ≤ n ↔ Side.lower.outermost low ≤ n := by
    rw [hlower] at hexact
    rw [least_le_iff hfinite (least_of_ofConstraints h hlower) hn,
      Side.nearest_outermost hfinite hexact]
    exact Int.cast_le
  have hinside : Side.lower.outermost low ≤ range.min := (hreaches hmin).mp le_rfl
  have hhigh : Side.lower.outermost low ≤ maxInt64 := hinside.trans hmin.2
  refine le_antisymm ((hreaches (clamp_mem _)).mpr ?_) ((clamp_le_iff hmin hhigh).mpr hinside)
  unfold clamp
  split_ifs <;> omega

/-- The range ends at the outermost integer that its upper bound allows. -/
theorem max_eq_clamp (h : ofConstraints c = .ok range) (hupper : c.upper = some high)
    (hfinite : high.value.isFinite = true) (hexact : Side.upper.Exact c.upper) :
    range.max = clamp (Side.upper.outermost high) := by
  have hdrawable := drawable_of_ofConstraints h
  have hmax : Fits range.max := ⟨hdrawable.low.trans hdrawable.ordered, hdrawable.high⟩
  have hreaches {n : Int} (hn : Fits n) : n ≤ range.max ↔ n ≤ Side.upper.outermost high := by
    rw [hupper] at hexact
    rw [le_greatest_iff hfinite (greatest_of_ofConstraints h hupper) hn,
      Side.nearest_outermost hfinite hexact]
    exact Int.cast_le
  have hinside : range.max ≤ Side.upper.outermost high := (hreaches hmax).mp le_rfl
  have hlow : minInt64 ≤ Side.upper.outermost high := hmax.1.trans hinside
  refine le_antisymm ((le_clamp_iff hmax hlow).mpr hinside) ((hreaches (clamp_mem _)).mpr ?_)
  unfold clamp
  split_ifs <;> omega

/-! ### Ends that the default span means -/

theorem ends_of_none (h : ofConstraints c = .ok range) (hlower : c.lower = none)
    (hupper : c.upper = none) : range.min = 0 ∧ range.max = defaultSpan := by
  obtain ⟨first, last, hfirst, hlast, -, -, rfl⟩ := ofConstraints_eq_ok.mp h
  rw [hlower] at hfirst
  rw [hupper] at hlast
  cases hfirst
  cases hlast
  exact ⟨rfl, rfl⟩

theorem max_of_lower (h : ofConstraints c = .ok range) (hlower : c.lower = some low)
    (hupper : c.upper = none) : range.max = clamp (range.min + defaultSpan) := by
  obtain ⟨first, last, hfirst, hlast, -, -, rfl⟩ := ofConstraints_eq_ok.mp h
  rw [hlower] at hfirst
  rw [hupper] at hlast
  obtain ⟨k, -, rfl⟩ := mapM_some_eq_ok.mp hfirst
  cases hlast
  rfl

theorem min_of_upper (h : ofConstraints c = .ok range) (hlower : c.lower = none)
    (hupper : c.upper = some high) :
    range.min = if 0 ≤ range.max then 0 else clamp (range.max - defaultSpan) := by
  obtain ⟨first, last, hfirst, hlast, -, -, rfl⟩ := ofConstraints_eq_ok.mp h
  rw [hlower] at hfirst
  rw [hupper] at hlast
  obtain ⟨k, -, rfl⟩ := mapM_some_eq_ok.mp hlast
  cases hfirst
  simp only [span]
  split_ifs <;> rfl

/-- Of the integers that both effective bounds allow and rounding spares, a range has those within its
defaults. -/
theorem mem_iff_withinDefaults (h : ofConstraints c = .ok range) (hn : Fits n)
    (hfinite : ∀ bound, c.lower = some bound ∨ c.upper = some bound →
      bound.value.isFinite = true)
    (hbelow : Side.lower.Allows c.lower n) (habove : Side.upper.Allows c.upper n)
    (hspared : Spared c n) : range.min ≤ n ∧ n ≤ range.max ↔ WithinDefaults c n := by
  have hdrawable := drawable_of_ofConstraints h
  have hmin (low : Bound) (hlower : c.lower = some low) : range.min ≤ n :=
    (min_le_iff h hlower (hfinite low (.inl hlower)) hn hbelow).mpr hspared.lower
  have hmax (high : Bound) (hupper : c.upper = some high) : n ≤ range.max :=
    (le_max_iff h hupper (hfinite high (.inr hupper)) hn habove).mpr hspared.upper
  rcases hlower : c.lower with _ | low <;> rcases hupper : c.upper with _ | high
  · obtain ⟨hfirst, hlast⟩ := ends_of_none h hlower hupper
    simp only [WithinDefaults, hlower, hupper, hfirst, hlast]
  · have hend := max_eq_clamp h hupper (hfinite high (.inr hupper)) (hspared.greatest hlower)
    have hspan : range.max - defaultSpan ≤ maxInt64 := by
      have hhigh := hdrawable.high
      unfold defaultSpan
      omega
    rw [and_iff_left (hmax high hupper), min_of_upper h hlower hupper]
    simp only [WithinDefaults, hlower, hupper, ← hend]
    split_ifs
    · exact Iff.rfl
    · exact clamp_le_iff hn hspan
  · have hend := min_eq_clamp h hlower (hfinite low (.inl hlower)) (hspared.least hupper)
    have hspan : minInt64 ≤ range.min + defaultSpan := by
      have hlow := hdrawable.low
      unfold defaultSpan
      omega
    rw [and_iff_right (hmin low hlower), max_of_lower h hlower hupper]
    simp only [WithinDefaults, hlower, hupper, ← hend]
    exact le_clamp_iff hn hspan
  · have hboth := And.intro (hmin low hlower) (hmax high hupper)
    simp only [WithinDefaults, hlower, hupper, hboth, and_self]

end IntegerRange

/-! ### Numbers -/

namespace NumberRange

open Double

/-- A number is not outside of an end that is filled in: zero and the default span without any bound,
and with one bound the end that is the default span away, or zero below a positive one. -/
def WithinDefaults (c : Constraints) (x : ℚ) : Prop :=
  match c.lower, c.upper with
  | some _, some _ => True
  | some low, none => x ≤ (low.value.add defaultSpan).value
  | none, some high =>
      if 0 < high.value.value then 0 ≤ x else (high.value.sub defaultSpan).value ≤ x
  | none, none => 0 ≤ x ∧ x ≤ 1000

variable {c : Constraints} {range : NumberRange} {x : Double}

theorem allows_inclusive_iff {side : Side} {value : Double} {x : ℚ} :
    side.Allows (some (inclusive value)) x ↔ side.Reaches value.value x :=
  Side.allows_some_iff

theorem contains_iff_withinDefaults (h : ofConstraints c = .ok range) (hx : x.isFinite = true)
    (hbelow : Side.lower.Allows c.lower x.value) (habove : Side.upper.Allows c.upper x.value) :
    range.contains x = true ↔ WithinDefaults c x.value := by
  obtain ⟨hdrawable, rfl⟩ := ofConstraints_eq_ok_iff.mp h
  have hspan : defaultSpan.value = 1000 := (denotes_ofInt_of_le (by decide)).value
  rw [contains_iff hdrawable.low hdrawable.high hx]
  rcases hlower : c.lower with _ | low <;> rcases hupper : c.upper with _ | high
  · simp only [span, allows_inclusive_iff, WithinDefaults, hlower, hupper, Side.Reaches, hspan,
      Constraints.denotes_zero.value, Int.cast_zero]
  · rw [hlower, hupper] at hdrawable
    rw [hupper] at habove
    have hpositive : zero.lt high.value = true ↔ 0 < high.value.value := by
      have hfinite : high.value.isFinite = true := by
        have hhigh := hdrawable.high
        simp only [span] at hhigh
        split_ifs at hhigh <;> exact hhigh
      rw [lt_iff_value Constraints.denotes_zero.finite hfinite, Constraints.denotes_zero.value,
        Int.cast_zero]
    simp only [span, hpositive, WithinDefaults, hlower, hupper]
    split_ifs
    · simp only [allows_inclusive_iff, habove, and_true, Side.Reaches,
        Constraints.denotes_zero.value, Int.cast_zero]
    · simp only [allows_inclusive_iff, habove, and_true, Side.Reaches]
  · rw [hlower] at hbelow
    simp only [span, hbelow, true_and, allows_inclusive_iff, WithinDefaults, hlower, hupper,
      Side.Reaches]
  · rw [hlower] at hbelow
    rw [hupper] at habove
    simp only [span, hbelow, habove, and_true, WithinDefaults, hlower, hupper]

end NumberRange

/-! ### Lengths -/

namespace Lengths

/-- A length of a text is not outside of an end that is filled in: one character unless none are
allowed, and the greatest default length unless more characters are asked for. -/
@[mk_iff]
structure TextWithinDefaults (c : Constraints) (count : Nat) : Prop where
  least : c.minLength = none → c.maxLength = some 0 ∨ 1 ≤ count
  greatest : c.maxLength = none → count ≤ Nat.max (c.minLength.getD 1) defaultTextMax

/-- A length of a list is not outside of the end that is filled in: the greatest default length unless
more elements are asked for. -/
def ListWithinDefaults (c : Constraints) (count : Nat) : Prop :=
  c.maxItems = none → count ≤ Nat.max (c.minItems.getD 0) defaultListMax

variable {c : Constraints} {lengths : Lengths} {count : Nat}

theorem contains_iff :
    lengths.contains count = true ↔ lengths.min ≤ count ∧ count ≤ lengths.max := by
  simp only [contains, Bool.and_eq_true, decide_eq_true_eq]

theorem min_of_ofText (h : ofText c = .ok lengths) (hmin : c.minLength = none) :
    lengths.min = if c.maxLength = some 0 then 0 else 1 := by
  rcases hmax : c.maxLength with _ | greatest <;> simp only [ofText, hmin, hmax] at h <;>
    split_ifs at h <;> cases h
  · rfl
  · rcases greatest with _ | greatest
    · rfl
    · simp

theorem max_of_ofText (h : ofText c = .ok lengths) (hmax : c.maxLength = none) :
    lengths.max = Nat.max (c.minLength.getD 1) defaultTextMax := by
  rcases hmin : c.minLength with _ | least <;> simp only [ofText, hmin, hmax] at h <;>
    split_ifs at h <;> cases h <;> rfl

theorem min_of_ofList (h : ofList c = .ok lengths) : lengths.min = c.minItems.getD 0 := by
  simp only [ofList, forList] at h
  split_ifs at h
  cases h
  rfl

theorem max_of_ofList (h : ofList c = .ok lengths) (hmax : c.maxItems = none) :
    lengths.max = Nat.max (c.minItems.getD 0) defaultListMax := by
  simp only [ofList, forList, hmax] at h
  split_ifs at h
  cases h
  rfl

theorem contains_iff_textWithinDefaults (h : ofText c = .ok lengths)
    (hkeeps : Keeps c.minLength c.maxLength count) :
    lengths.contains count = true ↔ TextWithinDefaults c count := by
  have hends := endAt_of_ofText h
  have hleast : lengths.min ≤ count ↔
      (c.minLength = none → c.maxLength = some 0 ∨ 1 ≤ count) := by
    rcases hmin : c.minLength with _ | least
    · rw [min_of_ofText h hmin]
      split_ifs with hzero <;> simp [hzero]
    · simp [hends.least least hmin, hkeeps.least least hmin]
  have hgreatest : count ≤ lengths.max ↔
      (c.maxLength = none → count ≤ Nat.max (c.minLength.getD 1) defaultTextMax) := by
    rcases hmax : c.maxLength with _ | greatest
    · simp [max_of_ofText h hmax]
    · simp [hends.greatest greatest hmax, hkeeps.greatest greatest hmax]
  rw [contains_iff, hleast, hgreatest, textWithinDefaults_iff]

theorem contains_iff_listWithinDefaults (h : ofList c = .ok lengths)
    (hkeeps : Keeps c.minItems c.maxItems count) :
    lengths.contains count = true ↔ ListWithinDefaults c count := by
  have hends := endAt_of_ofList h
  have hleast : lengths.min ≤ count := by
    rw [min_of_ofList h]
    rcases hmin : c.minItems with _ | least
    · exact Nat.zero_le count
    · exact hkeeps.least least hmin
  have hgreatest : count ≤ lengths.max ↔ ListWithinDefaults c count := by
    unfold ListWithinDefaults
    rcases hmax : c.maxItems with _ | greatest
    · simp [max_of_ofList h hmax]
    · simp [hends.greatest greatest hmax, hkeeps.greatest greatest hmax]
  rw [contains_iff, hgreatest, and_iff_right hleast]

end Lengths

end Specimen
