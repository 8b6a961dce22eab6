import Specimen.Proofs.IntegerNodes

/-!
# The edges of bounds

A bound that is written as an integer of 64 bits is read as a double, and what it leaves begins at an
edge: the bound itself or, for an exclusive one, what the next integer is read as. Edges are found for
both sides at once, inward being up from a lower bound and down from an upper one.
-/

namespace Specimen

open Double

/-! ### The edge of a bound -/

/-- A whole number that a bound may be read as: one of 64 bits, or the first beyond them. -/
def Reachable (b : Int) : Prop :=
  minInt64 ≤ b ∧ b ≤ 0x8000000000000000

theorem reachable_nearest {k : Int} (hlow : minInt64 - 1 ≤ k) (hhigh : k ≤ 0x8000000000000001) :
    Reachable (nearest k) := by
  have hleast : nearest (minInt64 - 1) = minInt64 := by decide +kernel
  have hgreatest : nearest 0x8000000000000001 = 0x8000000000000000 := by decide +kernel
  unfold Reachable
  unfold minInt64 at hlow hleast ⊢
  have hbelow : nearest (-0x8000000000000000 - 1) ≤ nearest k :=
    nearest_mono (by decide) (by omega) hlow
  have habove : nearest k ≤ nearest 0x8000000000000001 :=
    nearest_mono (by omega) (by decide) hhigh
  omega

/-- The outermost integer that a bound leaves: itself, or the next inside of it. -/
def edge (next : Int → Int) (exclusive : Bool) (b : Int) : Int :=
  if exclusive then next b else b

/-- An integer of at most 53 binary digits. -/
def Short (n : Int) : Prop :=
  n.natAbs ≤ 2 ^ 53

instance (n : Int) : Decidable (Short n) :=
  inferInstanceAs (Decidable (n.natAbs ≤ 2 ^ 53))

/-- What the next integer is read as, `1` being inward for lower bounds and `-1` for upper ones. -/
def readNext (inward b : Int) : Int :=
  nearest (b + inward)

/-- The next integer lies further inside, but not beyond any other number there that is read as
itself. -/
structure Advances (inward : Int) (next : Int → Int) : Prop where
  le_next {b : Int} : Reachable b → nearest b = b → inward * b ≤ inward * next b
  next_le {b m : Int} : Reachable b → Reachable m → nearest m = m → inward * b < inward * m →
    inward * next b ≤ inward * m

section Edge

variable {inward b m : Int} {next : Int → Int}

theorem advances_add (hside : inward = 1 ∨ inward = -1) : Advances inward (· + inward) where
  le_next _ _ := by rcases hside with rfl | rfl <;> omega
  next_le _ _ _ h := by rcases hside with rfl | rfl <;> omega

theorem advances_readNext (hside : inward = 1 ∨ inward = -1) :
    Advances inward (readNext inward) where
  le_next {b} hb hread := by
    obtain ⟨hlow, hhigh⟩ := hb
    unfold minInt64 at hlow
    unfold readNext
    rcases hside with rfl | rfl
    · have hmono : nearest b ≤ nearest (b + 1) := nearest_mono (by omega) (by omega) (by omega)
      omega
    · have hmono : nearest (b + -1) ≤ nearest b := nearest_mono (by omega) (by omega) (by omega)
      omega
  next_le {b m} hb hm hread h := by
    obtain ⟨hlow, hhigh⟩ := hb
    obtain ⟨hlow', hhigh'⟩ := hm
    unfold minInt64 at hlow hlow'
    unfold readNext
    rcases hside with rfl | rfl
    · have hmono : nearest (b + 1) ≤ nearest m := nearest_mono (by omega) (by omega) (by omega)
      omega
    · have hmono : nearest m ≤ nearest (b + -1) := nearest_mono (by omega) (by omega) (by omega)
      omega

theorem Advances.le_edge (hnext : Advances inward next) (exclusive : Bool) (hb : Reachable b)
    (hread : nearest b = b) : inward * b ≤ inward * edge next exclusive b := by
  cases exclusive with
  | false => exact Int.le_refl _
  | true => exact hnext.le_next hb hread

theorem reachable_edge (hside : inward = 1 ∨ inward = -1) (exclusive : Bool) (hb : Reachable b) :
    Reachable (edge (readNext inward) exclusive b) := by
  cases exclusive with
  | false => exact hb
  | true =>
      obtain ⟨hlow, hhigh⟩ := hb
      exact reachable_nearest (by omega) (by omega)

theorem natAbs_edge_le (hside : inward = 1 ∨ inward = -1) (exclusive : Bool) (hb : Reachable b) :
    (edge (· + inward) exclusive b).natAbs ≤ 2 ^ 64 := by
  obtain ⟨hlow, hhigh⟩ := hb
  unfold minInt64 at hlow
  cases exclusive with
  | false =>
      change b.natAbs ≤ 2 ^ 64
      omega
  | true =>
      change (b + inward).natAbs ≤ 2 ^ 64
      omega

/-- The edge of what is read is read from the edge. -/
theorem edge_readNext (exclusive : Bool) (hread : nearest b = b) :
    edge (readNext inward) exclusive b = nearest (edge (· + inward) exclusive b) := by
  cases exclusive with
  | false => exact hread.symm
  | true => rfl

/-- Below `2 ^ 63` an edge is read below it. -/
theorem edge_readNext_le (exclusive : Bool) (hb : Reachable b) (hread : nearest b = b)
    (hnext : edge (· + 1) exclusive b ≤ maxInt64) :
    edge (readNext 1) exclusive b ≤ maxInt64 := by
  cases exclusive with
  | false => exact hnext
  | true =>
      obtain ⟨hlow, hhigh⟩ := hb
      change b + 1 ≤ maxInt64 at hnext
      change nearest (b + 1) ≤ maxInt64
      -- The greatest number below 2 ^ 63 that is read as itself ends in ten binary zeros.
      have hbelow : nearest 0x7ffffffffffffdff = 0x7ffffffffffffc00 := by decide +kernel
      have habove : nearest 0x7ffffffffffffe00 = 0x8000000000000000 := by decide +kernel
      unfold minInt64 at hlow
      unfold maxInt64 at hnext ⊢
      rcases Int.lt_or_le b 0x7ffffffffffffdff with hsmall | hlarge
      · have hmono : nearest (b + 1) ≤ nearest 0x7ffffffffffffdff :=
          nearest_mono (by omega) (by decide) (by omega)
        omega
      · rcases Int.lt_or_eq_of_le hlarge with hlarger | rfl
        · have hmono : nearest 0x7ffffffffffffe00 ≤ nearest b :=
            nearest_mono (by decide) (by omega) (by omega)
          omega
        · omega

end Edge

namespace IntegerRange

variable {c : Constraints} {range : IntegerRange} {bound low high : Bound} {b n : Int}

theorem denotes_limit : limit.Denotes 0x8000000000000000 :=
  ⟨by decide +kernel, by decide +kernel⟩

theorem least_eq (h : bound.value.Denotes b) (hb : Reachable b) :
    least bound = if 0x8000000000000000 ≤ edge (readNext 1) bound.exclusive b
      then .error (.emptyRange (.lowerBeyond bound.value)) else .ok (edge (readNext 1) bound.exclusive b) := by
  have hlowest : (if bound.exclusive then bound.value.floor.add (Double.ofInt 1)
      else bound.value.ceil).Denotes (edge (readNext 1) bound.exclusive b) := by
    obtain ⟨hlow, hhigh⟩ := hb
    unfold minInt64 at hlow
    cases bound.exclusive with
    | false => exact h.ceil
    | true => exact h.floor.add (denotes_ofInt_of_le (by decide)) (by omega)
  have hleast := (reachable_edge (.inl rfl) bound.exclusive hb).1
  unfold least
  generalize (if bound.exclusive = true then bound.value.floor.add (Double.ofInt 1)
    else bound.value.ceil) = lowest at hlowest ⊢
  generalize edge (readNext 1) bound.exclusive b = k at hlowest hleast ⊢
  have hcut : (lowest.max limit.neg).Denotes k := by
    rw [hlowest.max_eq denotes_limit.neg]
    split
    next => exact hlowest
    next hlow =>
      obtain rfl : k = -0x8000000000000000 := Int.le_antisymm (Int.not_lt.mp hlow) hleast
      exact denotes_limit.neg
  simp only [denotes_limit.le_iff hlowest]
  split
  next => rfl
  next hsmall =>
    rw [hcut.toInt64, if_neg (Int.not_lt.mpr hleast), if_neg]
    unfold maxInt64
    omega

theorem greatest_eq (h : bound.value.Denotes b) (hb : Reachable b) :
    greatest bound = .ok (Min.min (edge (readNext (-1)) bound.exclusive b) maxInt64) := by
  have hhighest : (if bound.exclusive then bound.value.ceil.sub (Double.ofInt 1)
      else bound.value.floor).Denotes (edge (readNext (-1)) bound.exclusive b) := by
    obtain ⟨hlow, hhigh⟩ := hb
    unfold minInt64 at hlow
    cases bound.exclusive with
    | false => exact h.floor
    | true => exact h.ceil.sub (denotes_ofInt_of_le (by decide)) (by omega)
  have hleast := (reachable_edge (.inr rfl) bound.exclusive hb).1
  unfold greatest
  generalize (if bound.exclusive = true then bound.value.ceil.sub (Double.ofInt 1)
    else bound.value.floor) = highest at hhighest ⊢
  generalize edge (readNext (-1)) bound.exclusive b = k at hhighest hleast ⊢
  simp only [hhighest.lt_iff denotes_limit.neg, denotes_limit.le_iff hhighest]
  rw [if_neg (show ¬ k < -0x8000000000000000 from Int.not_lt.mpr hleast)]
  split
  next hlarge =>
    rw [Int.min_eq_right]
    unfold maxInt64
    omega
  next hsmall =>
    have hfits : k ≤ maxInt64 := by
      unfold maxInt64
      omega
    rw [hhighest.toInt64, if_neg (Int.not_lt.mpr hleast), if_neg (Int.not_lt.mpr hfits),
      Int.min_eq_left hfits]

/-! ### Limits and ranges -/

theorem mapM_some_eq_ok {f : Bound → Except PrimitiveError Int} {limit : Option Int} :
    (some bound).mapM f = .ok limit ↔ ∃ n, f bound = .ok n ∧ some n = limit := by
  rw [Option.mapM_some, Outcome.map_eq_ok]

theorem least_of_ofConstraints (h : ofConstraints c = .ok range) (hlower : c.lower = some bound) :
    least bound = .ok range.min := by
  obtain ⟨lower, upper, hleast, -, -, -, rfl⟩ := ofConstraints_eq_ok.mp h
  rw [hlower] at hleast
  obtain ⟨n, hn, rfl⟩ := mapM_some_eq_ok.mp hleast
  cases upper <;> exact hn

theorem greatest_of_ofConstraints (h : ofConstraints c = .ok range)
    (hupper : c.upper = some bound) : greatest bound = .ok range.max := by
  obtain ⟨lower, upper, -, hgreatest, -, -, rfl⟩ := ofConstraints_eq_ok.mp h
  rw [hupper] at hgreatest
  obtain ⟨n, hn, rfl⟩ := mapM_some_eq_ok.mp hgreatest
  cases lower with
  | some least => exact hn
  | none =>
      rw [span]
      split <;> exact hn

theorem exists_ofConstraints {min max : Int} (hlower : c.lower = some low)
    (hupper : c.upper = some high) (hleast : least low = .ok min) (hgreatest : greatest high = .ok max)
    (hmin : min ≤ n) (hmax : n ≤ max)
    (hstep : ∀ step, c.multipleOf.bind stepOf = some step → step ∣ n) :
    ∃ range, ofConstraints c = .ok range := by
  refine ⟨_, ofConstraints_eq_ok.mpr ⟨some min, some max, ?_, ?_, Int.le_trans hmin hmax, ?_, rfl⟩⟩
  · rw [hlower]
    exact mapM_some_eq_ok.mpr ⟨min, hleast, rfl⟩
  · rw [hupper]
    exact mapM_some_eq_ok.mpr ⟨max, hgreatest, rfl⟩
  · intro step hread
    obtain ⟨multiple, -, hof⟩ := Option.bind_eq_some_iff.mp hread
    exact (ceilDiv_le_ediv_iff (stepOf_pos hof)).mpr ⟨n, hmin, hmax, hstep step hread⟩

/-- A multiple among what is read as a double below `2 ^ 63` is one of the step taken. -/
theorem dvd_of_stepOf {multiple : Double} {step factor : Int} (h : stepOf multiple = some step)
    (hfits : multiple.value < 2 ^ 63) (hmultiple : (n : ℚ) = factor * multiple.value) : step ∣ n := by
  obtain ⟨k, hk, -, rfl⟩ := exists_denotes_of_stepOf h
  rw [hk.value] at hmultiple
  have hproduct : n = factor * k := by exact_mod_cast hmultiple
  rw [Int.min_eq_left (hk.le_maxInt64 hfits)]
  exact ⟨factor, by rw [hproduct, Int.mul_comm]⟩

end IntegerRange

/-! ### One side -/

/-- The bounds that are written on one side are integers of 64 bits, the exclusive one possibly a
mark. -/
structure WholeSide (inclusive exclusive : Option Json) : Prop where
  bound : ∀ value, inclusive = some value → ∃ b, value = .int b ∧ IntegerRange.Fits b
  excluded : ∀ value, exclusive = some value →
    (∃ mark, value = .bool mark) ∨ ∃ b, value = .int b ∧ IntegerRange.Fits b

/-- A bound is excluded when it is written as an exclusive one, or as an inclusive one with a mark. -/
def Excludes (inclusive exclusive : Option Json) (b : Int) : Prop :=
  exclusive = some (.int b) ∨ exclusive = some (.bool true) ∧ inclusive = some (.int b)

/-- One side has a bound. -/
def Bounded (inclusive exclusive : Option Json) : Prop :=
  ∃ b, inclusive = some (.int b) ∨ exclusive = some (.int b)

/-- An integer does not pass the edges of the bounds on one side. -/
@[mk_iff]
structure Within (inward : Int) (next : Int → Int) (inclusive exclusive : Option Json) (n : Int) :
    Prop where
  bound : ∀ b, inclusive = some (.int b) → inward * nearest b ≤ inward * n
  excluded : ∀ b, Excludes inclusive exclusive b → inward * next (nearest b) ≤ inward * n

section Sides

open Constraints

variable {inward b m e n : Int} {inclusive exclusive : Option Json} {low : Option Double}
  {mark : Option Exclusive} {stricter : Double → Double → Double} {found : Bound}

theorem WholeSide.fits (h : WholeSide inclusive exclusive) (hb : Excludes inclusive exclusive b) :
    IntegerRange.Fits b := by
  rcases hb with hb | ⟨-, hb⟩
  · obtain ⟨flag, hflag⟩ | ⟨e, he, hfits⟩ := h.excluded _ hb
    · cases hflag
    · cases he
      exact hfits
  · obtain ⟨m, hm, hfits⟩ := h.bound _ hb
    cases hm
    exact hfits

/-- A side without a bound leaves every integer. -/
theorem Within.of_bounded {inward : Int} {next : Int → Int}
    (h : Bounded inclusive exclusive → Within inward next inclusive exclusive n) :
    Within inward next inclusive exclusive n where
  bound b hb := (h ⟨b, .inl hb⟩).bound b hb
  excluded b hb := (h ⟨b, hb.elim .inr fun hmark => .inl hmark.2⟩).excluded b hb

/-- Where the next integer is exact it does not matter that it is read. -/
theorem Within.readNext_of_short {inward : Int}
    (hshort : ∀ b, Excludes inclusive exclusive b → Short (nearest b + inward))
    (h : Within inward (· + inward) inclusive exclusive n) :
    Within inward (readNext inward) inclusive exclusive n where
  bound := h.bound
  excluded b hb := by
    rw [readNext, nearest_of_le (hshort b hb)]
    exact h.excluded b hb

theorem denotes_of_fits (hb : IntegerRange.Fits b) : (Double.ofInt b).Denotes (nearest b) := by
  obtain ⟨hlow, hhigh⟩ := hb
  unfold minInt64 at hlow
  unfold maxInt64 at hhigh
  exact denotes_nearest (by omega)

theorem reachable_of_fits (hb : IntegerRange.Fits b) : Reachable (nearest b) := by
  obtain ⟨hlow, hhigh⟩ := hb
  unfold maxInt64 at hhigh
  exact reachable_nearest (by omega) (by omega)

/-- The stricter of two bounds, which excludes when it is the exclusive one, leaves what both leave. -/
theorem exists_edge_of_stricter
    (hstricter : ∀ {x y m n}, x.Denotes m → y.Denotes n →
      stricter x y = if inward * n < inward * m then x else y)
    (hm : IntegerRange.Fits m) (he : IntegerRange.Fits e) :
    ∃ b, (stricter (Double.ofInt m) (Double.ofInt e)).Denotes b ∧ Reachable b ∧
      ∀ {next n}, Advances inward next →
        (inward * edge next ((stricter (Double.ofInt m) (Double.ofInt e)).equal (Double.ofInt e)) b ≤
            inward * n ↔
          inward * nearest m ≤ inward * n ∧ inward * next (nearest e) ≤ inward * n) := by
  have hdm := denotes_of_fits hm
  have hde := denotes_of_fits he
  rw [hstricter hdm hde]
  split
  next hinside =>
    have hne : (Double.ofInt m).equal (Double.ofInt e) = false := by
      rw [Bool.eq_false_iff, Ne, hdm.equal_iff hde]
      intro heq
      rw [heq] at hinside
      exact Int.lt_irrefl _ hinside
    refine ⟨nearest m, hdm, reachable_of_fits hm, fun hnext => ?_⟩
    have hpassed := hnext.next_le (reachable_of_fits he) (reachable_of_fits hm) hdm.nearest hinside
    rw [hne]
    exact ⟨fun h => ⟨h, Int.le_trans hpassed h⟩, And.left⟩
  next houtside =>
    refine ⟨nearest e, hde, reachable_of_fits he, fun hnext => ?_⟩
    have hinner := hnext.le_next (reachable_of_fits he) hde.nearest
    rw [(hde.equal_iff hde).mpr rfl]
    exact ⟨fun h => ⟨Int.le_trans (Int.not_lt.mp houtside) (Int.le_trans hinner h), h⟩, And.right⟩

/-- The bound that one side means leaves the integers that do not pass the edges of the written
bounds, whatever stands for the next integer. -/
theorem exists_bound_edge
    (hstricter : ∀ {x y m n}, x.Denotes m → y.Denotes n →
      stricter x y = if inward * n < inward * m then x else y)
    (hwhole : WholeSide inclusive exclusive) (hlow : Sets readNumber inclusive .none low)
    (hmark : Sets readExclusive exclusive .none mark)
    (hbound : Constraints.bound low mark stricter = some found) :
    ∃ b, found.value.Denotes b ∧ Reachable b ∧
      ∀ {next n}, Advances inward next →
        (inward * edge next found.exclusive b ≤ inward * n ↔
          Within inward next inclusive exclusive n) := by
  cases inclusive with
  | none =>
      obtain rfl : low = .none := hlow
      cases exclusive with
      | none =>
          obtain rfl : mark = .none := hmark
          cases hbound
      | some value =>
          obtain ⟨flag, rfl⟩ | ⟨e, rfl, he⟩ := hwhole.excluded value rfl
          · cases hmark
            cases hbound
          · cases hmark
            cases hbound
            refine ⟨nearest e, denotes_of_fits he, reachable_of_fits he, fun _ => ?_⟩
            simp [within_iff, Excludes, edge]
  | some value =>
      obtain ⟨m, rfl, hm⟩ := hwhole.bound value rfl
      obtain rfl := hlow.eq_of_double? rfl
      cases exclusive with
      | none =>
          obtain rfl : mark = .none := hmark
          cases hbound
          refine ⟨nearest m, denotes_of_fits hm, reachable_of_fits hm, fun _ => ?_⟩
          simp [within_iff, Excludes, edge]
      | some value =>
          obtain ⟨flag, rfl⟩ | ⟨e, rfl, he⟩ := hwhole.excluded value rfl
          · cases hmark
            cases hbound
            refine ⟨nearest m, denotes_of_fits hm, reachable_of_fits hm, fun hnext => ?_⟩
            have hinner := hnext.le_edge flag (reachable_of_fits hm) (denotes_of_fits hm).nearest
            cases flag with
            | false => simp [within_iff, Excludes, edge]
            | true =>
                simp only [within_iff, Excludes, reduceCtorEq, false_or, Option.some.injEq,
                  Json.int.injEq, true_and, forall_eq']
                exact ⟨fun h => ⟨Int.le_trans hinner h, h⟩, And.right⟩
          · cases hmark
            obtain rfl := Option.some.inj hbound
            obtain ⟨b, hb, hreach, hedge⟩ := exists_edge_of_stricter hstricter hm he
            refine ⟨b, hb, hreach, fun hnext => ?_⟩
            simp only [within_iff, Excludes, reduceCtorEq, false_and, or_false, Option.some.injEq,
              Json.int.injEq, forall_eq']
            exact hedge hnext

theorem exists_bound (hwritten : Bounded inclusive exclusive)
    (hlow : Sets readNumber inclusive .none low) (hmark : Sets readExclusive exclusive .none mark) :
    ∃ found, Constraints.bound low mark stricter = some found := by
  obtain ⟨b, rfl | rfl⟩ := hwritten
  · obtain rfl := hlow.eq_of_double? rfl
    rcases mark with _ | ⟨_ | _⟩ <;> exact ⟨_, rfl⟩
  · cases hmark
    cases low <;> exact ⟨_, rfl⟩

end Sides

end Specimen
