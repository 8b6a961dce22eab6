import Specimen.Json.WellFormed
import Specimen.Proofs.IntegerDraws
import Specimen.Proofs.ReadConstraints

/-!
# Nodes of type integer

A node of type integer compiles to the leaf of the range that its keywords mean. Its multiples are
those of `multipleOf` when that is a whole number below `2 ^ 63`, or goes into one a whole number of
times; every other `multipleOf` is missed by some node.
-/

namespace Specimen

namespace Constraints

variable {node value : Json} {c : Constraints} {x : Double}

/-- Constraints are what the keywords of their node say, null counted as absent. -/
theorem reads_value? (hwell : node.WellFormed) (h : ofNode node = .ok c) :
    Reads (fun key => node.value? key) none c := by
  cases node with
  | obj members =>
      rw [ofNode] at h
      cases hread : readMembers none members with
      | error e =>
          rw [hread] at h
          cases h
      | ok found =>
          rw [hread] at h
          cases h
          have hdistinct := (Json.wellFormed_obj_iff.mp hwell).1
          have hreads := (readMembers_eq_ok hdistinct).mp hread
          exact hreads.of_nonNull_eq fun key _ => (Json.nonNull_nonNull _).symm
  | null | bool | int | float | str | arr =>
      cases h
      constructor <;> rfl

theorem Sets.eq_of_double? {old new : Option Double} (h : Sets readNumber (some value) old new)
    (hx : value.double? = some x) : new = some x := by
  have hread : readNumber value = .ok (some x) := by
    cases value <;> simp_all [readNumber, Json.double?]
  change readNumber value = .ok new at h
  rw [hread, Except.ok.injEq] at h
  exact h.symm

end Constraints

namespace Scope

/-- The standard library builds the leaf of an integer node from its constraints. -/
theorem compile_integer_eq_ok {engine : Pattern.Engine} {name : String} {node : Json}
    {generator : Generator} (hkind : classify node = .ok (.single .integer)) :
    compile ⟨name, .standard engine⟩ node = .ok generator ↔
      ∃ c range, Constraints.ofNode node = .ok c ∧ IntegerRange.ofConstraints c = .ok range ∧
        .leaf range.leaf = generator := by
  rw [compile_of_classify hkind, compileKind, compileType, primitive]
  simp only [Outcome.bind_eq_ok, ofSchema_eq_ok, Outcome.map_eq_ok, ofPrimitive_eq_ok,
    Library.standard]
  grind

end Scope

theorem Generator.produce_leaf {leaf : Leaf} {value : Json} {s t : Source}
    (h : leaf.generate s = (.ok value, t)) (catalog : Catalog) (depth : Nat) :
    (Generator.leaf leaf).produce catalog (depth + 1) s = (.ok value, t) := by
  have hgenerate : (Generator.leaf leaf).generate catalog (depth + 1) s =
      (.ok (.value value), t) :=
    Run.bind_eq_ok.mpr ⟨value, t, Run.adapt_eq_ok.mpr h, rfl⟩
  exact Run.bind_eq_ok.mpr ⟨.value value, t, hgenerate, rfl⟩

/-! ### Multiples -/

/-- Every integer that a node of type integer gives is a multiple of its `multipleOf`, where that is
written as this number. -/
def Honoured (x : Double) : Prop :=
  ∀ {engine name node generator written}, node.WellFormed →
    classify node = .ok (.single .integer) →
    node.value? "multipleOf" = some written → written.double? = some x →
    Scope.compile ⟨name, .standard engine⟩ node = .ok generator →
    ∀ catalog depth s, ∃ (n factor : Int) (t : Source),
      generator.produce catalog (depth + 1) s = (.ok (.int n), t) ∧ (n : ℚ) = factor * x.value

section Multiples

variable {x : Double}

theorem exists_denotes_of_pos (hwhole : x.isIntegral = true) (hpos : 0 < x.value) :
    ∃ step, x.Denotes step ∧ 1 ≤ step := by
  obtain ⟨step, hstep⟩ := Double.isIntegral_iff.mp hwhole
  rw [hstep.value] at hpos
  exact ⟨step, hstep, by exact_mod_cast hpos⟩

theorem honoured_of_whole (hpos : 0 < x.value) (hwhole : x.isIntegral = true)
    (hfits : x.value < 2 ^ 63) : Honoured x := by
  intro engine name node generator written hwell hkind hwritten hnumber hcompile catalog depth s
  obtain ⟨c, range, hread, hrange, rfl⟩ := (Scope.compile_integer_eq_ok hkind).mp hcompile
  obtain ⟨step, hstep, hleast⟩ := exists_denotes_of_pos hwhole hpos
  have hmultiple : c.multipleOf = some x := by
    have hset := (Constraints.reads_value? hwell hread).multipleOf
    rw [hwritten] at hset
    exact hset.eq_of_double? hnumber
  have htaken : range.step = some step := by
    rw [IntegerRange.step_of_ofConstraints hrange, hmultiple, Option.bind_some,
      IntegerRange.stepOf_of_denotes hstep hleast, Int.min_eq_left (hstep.le_maxInt64 hfits)]
  obtain ⟨n, t, hdrawn, -, hdvd, -⟩ := (IntegerRange.exact_of_ofConstraints hrange).sound s
  obtain ⟨factor, rfl⟩ := hdvd step htaken
  refine ⟨step * factor, factor, t, ?_, ?_⟩
  · exact Generator.produce_leaf hdrawn catalog depth
  · rw [hstep.value, Int.cast_mul, mul_comm]

/-- What goes into one a whole number of times goes into every integer. -/
theorem honoured_of_reciprocal {count : Int} (hcount : count * x.value = 1) : Honoured x := by
  intro engine name node generator written _ hkind _ _ hcompile catalog depth s
  obtain ⟨c, range, -, hrange, rfl⟩ := (Scope.compile_integer_eq_ok hkind).mp hcompile
  obtain ⟨n, t, hdrawn, -⟩ := (IntegerRange.exact_of_ofConstraints hrange).sound s
  refine ⟨n, n * count, t, ?_, ?_⟩
  · exact Generator.produce_leaf hdrawn catalog depth
  · rw [Int.cast_mul, mul_assoc, hcount, mul_one]

/-- Integers between two bounds, with a `multipleOf`. -/
def spaced (min max : Int) (x : Double) : Json :=
  .obj [("type", .str "integer"), ("minimum", .int min), ("maximum", .int max),
    ("multipleOf", .float x)]

/-- What the bounds alone say. -/
def spacedBounds (min max : Int) : Constraints :=
  { Constraints.none with
    minimum := some (Double.ofInt min), maximum := some (Double.ofInt max) }

theorem ofNode_spaced (min max : Int) (x : Double) :
    Constraints.ofNode (spaced min max x) =
      .ok { spacedBounds min max with multipleOf := some x } :=
  rfl

theorem wellFormed_int {n : Int} (hn : IntegerRange.Fits n) : (Json.int n).WellFormed :=
  ⟨hn.1, Int.lt_of_le_of_lt hn.2 (by decide)⟩

theorem wellFormed_spaced {min max : Int} (hmin : IntegerRange.Fits min)
    (hmax : IntegerRange.Fits max) (hfinite : x.isFinite = true) :
    (spaced min max x).WellFormed := by
  have hkeys : ["type", "minimum", "maximum", "multipleOf"].Nodup := by decide
  exact ⟨hkeys, trivial, wellFormed_int hmin, wellFormed_int hmax, hfinite, trivial⟩

/-- A number that is honoured has a multiple in every range that it is written for. -/
theorem Honoured.exists_multiple {min max : Int} {range : IntegerRange} (h : Honoured x)
    (hwell : (spaced min max x).WellFormed)
    (hrange : IntegerRange.ofConstraints { spacedBounds min max with multipleOf := some x } =
      .ok range) :
    ∃ n factor : Int, (range.min ≤ n ∧ n ≤ range.max) ∧ (n : ℚ) = factor * x.value := by
  have hkind : classify (spaced min max x) = .ok (.single .integer) := rfl
  have hcompile : Scope.compile ⟨"", .standard⟩ (spaced min max x) = .ok (.leaf range.leaf) :=
    (Scope.compile_integer_eq_ok hkind).mpr ⟨_, range, ofNode_spaced min max x, hrange, rfl⟩
  obtain ⟨n, factor, t, hproduce, hmultiple⟩ :=
    h hwell hkind rfl rfl hcompile ⟨[], .standard⟩ 0 (.mixed [] 0)
  obtain ⟨m, u, hdrawn, hbetween, -⟩ :=
    (IntegerRange.exact_of_ofConstraints hrange).sound (.mixed [] 0)
  rw [Generator.produce_leaf hdrawn] at hproduce
  cases hproduce
  exact ⟨n, factor, hbetween, hmultiple⟩

/-- A fraction that does not go into one is missed where only one is left. -/
theorem Honoured.whole_or_reciprocal (h : Honoured x) (hfinite : x.isFinite = true) :
    x.isIntegral = true ∨ ∃ count : Int, count * x.value = 1 := by
  cases hwhole : x.isIntegral with
  | true => exact .inl rfl
  | false =>
      have hbare : IntegerRange.ofConstraints (spacedBounds 1 1) = .ok ⟨1, 1, none⟩ := by
        decide +kernel
      have hstep : IntegerRange.stepOf x = none := by simp [IntegerRange.stepOf, hwhole]
      have hrange : IntegerRange.ofConstraints { spacedBounds 1 1 with multipleOf := some x } =
          .ok ⟨1, 1, none⟩ := by
        rw [IntegerRange.ofConstraints_eq, Option.bind_some, hstep]
        exact Outcome.bind_eq_ok.mpr ⟨_, hbare, rfl⟩
      obtain ⟨n, factor, ⟨hleast, hgreatest⟩, hmultiple⟩ := h.exists_multiple
        (wellFormed_spaced (by decide) (by decide) hfinite) hrange
      obtain rfl : n = 1 := Int.le_antisymm hgreatest hleast
      exact .inr ⟨factor, by rw [← hmultiple, Int.cast_one]⟩

/-- A whole number of `2 ^ 63` or more is missed where the greatest integer, taken in its place, has
a multiple and it has none. -/
theorem Honoured.value_lt (h : Honoured x) (hwhole : x.isIntegral = true) (hpos : 0 < x.value) :
    x.value < 2 ^ 63 := by
  obtain ⟨step, hstep, hleast⟩ := exists_denotes_of_pos hwhole hpos
  by_contra hlarge
  have hover : Double.maxInt64 < step := by
    rw [hstep.value, not_lt] at hlarge
    exact_mod_cast hlarge
  have hbare : IntegerRange.ofConstraints (spacedBounds 0x7ffffffffffffc00 Double.maxInt64) =
      .ok ⟨0x7ffffffffffffc00, Double.maxInt64, none⟩ := by decide +kernel
  have htaken : IntegerRange.stepOf x = some Double.maxInt64 := by
    rw [IntegerRange.stepOf_of_denotes hstep hleast, Int.min_eq_right hover.le]
  have hrange : IntegerRange.ofConstraints
      { spacedBounds 0x7ffffffffffffc00 Double.maxInt64 with multipleOf := some x } =
        .ok ⟨0x7ffffffffffffc00, Double.maxInt64, some Double.maxInt64⟩ := by
    rw [IntegerRange.ofConstraints_eq, Option.bind_some, htaken]
    exact Outcome.bind_eq_ok.mpr ⟨_, hbare, by decide⟩
  obtain ⟨n, factor, ⟨hlow, hhigh⟩, hmultiple⟩ := h.exists_multiple
    (wellFormed_spaced (by decide) (by decide) hstep.finite) hrange
  rw [hstep.value] at hmultiple
  have hproduct : n = factor * step := by exact_mod_cast hmultiple
  have hle : step ≤ n := Int.le_of_dvd (Int.lt_of_lt_of_le (by decide) hlow) ⟨factor, by
    rw [hproduct, Int.mul_comm]⟩
  exact absurd (Int.le_trans hle hhigh) (Int.not_le.mpr hover)

/-- The positive steps that every node of type integer honours: whole numbers below `2 ^ 63`, and
what goes into one a whole number of times. -/
theorem honoured_iff (hfinite : x.isFinite = true) (hpos : 0 < x.value) :
    Honoured x ↔ (x.isIntegral = true ∧ x.value < 2 ^ 63) ∨ ∃ count : Int, count * x.value = 1 := by
  constructor
  · intro h
    refine (h.whole_or_reciprocal hfinite).imp_left fun hwhole => ⟨hwhole, ?_⟩
    exact h.value_lt hwhole hpos
  · rintro (⟨hwhole, hfits⟩ | ⟨count, hcount⟩)
    · exact honoured_of_whole hpos hwhole hfits
    · exact honoured_of_reciprocal hcount

theorem honoured_seven : Honoured (Double.ofInt 7) ∧
    ∃ generator, Scope.compile ⟨"", .standard⟩ (spaced 1 100 (Double.ofInt 7)) = .ok generator ∧
      ∀ catalog depth s, ∃ (n factor : Int) (t : Source),
        generator.produce catalog (depth + 1) s = (.ok (.int n), t) ∧ (n : ℚ) = factor * 7 := by
  have hseven : (Double.ofInt 7).Denotes 7 := Double.denotes_ofInt_of_le (by decide)
  have hvalue : (Double.ofInt 7).value = 7 := hseven.value
  have hpos : 0 < (Double.ofInt 7).value := by
    rw [hvalue]
    decide
  have hhonoured : Honoured (Double.ofInt 7) := (honoured_iff hseven.finite hpos).mpr
    (.inl ⟨Double.isIntegral_iff.mpr ⟨7, hseven⟩, by rw [hvalue]; decide⟩)
  have hrange : IntegerRange.ofConstraints
      { spacedBounds 1 100 with multipleOf := some (Double.ofInt 7) } = .ok ⟨1, 100, some 7⟩ := by
    decide +kernel
  have hcompile : Scope.compile ⟨"", .standard⟩ (spaced 1 100 (Double.ofInt 7)) =
      .ok (.leaf (IntegerRange.leaf ⟨1, 100, some 7⟩)) :=
    (Scope.compile_integer_eq_ok rfl).mpr ⟨_, _, ofNode_spaced 1 100 _, hrange, rfl⟩
  refine ⟨hhonoured, _, hcompile, fun catalog depth s => ?_⟩
  rw [← hvalue]
  exact hhonoured (wellFormed_spaced (by decide) (by decide) hseven.finite) rfl rfl rfl hcompile
    catalog depth s

/-- Two and a half: it neither is whole nor goes into one. -/
def fraction : Double :=
  ⟨0x4004000000000000⟩

theorem value_fraction : fraction.value = 5 / 2 := by
  have hunits : 2 * fraction.units = 5 * Double.one := by decide +kernel
  have hone : (Double.one : ℚ) ≠ 0 := by exact_mod_cast Double.one_pos.ne'
  have hcast : 2 * (fraction.units : ℚ) = 5 * Double.one := by exact_mod_cast hunits
  rw [Double.value, div_eq_div_iff hone (by decide), mul_comm, hcast]

/-- A step of two and a half asks for five, which is its only multiple between four and six; four is
given all the same. -/
theorem exists_produce_unmultiplied :
    classify (spaced 4 6 fraction) = .ok (.single .integer) ∧ 0 < fraction.value ∧
      ∃ generator t,
        Scope.compile ⟨"Test", .standard⟩ (spaced 4 6 fraction) = .ok generator ∧
        generator.produce ⟨[], .standard⟩ 1 (.mixed [0] 1) = (.ok (.int 4), t) ∧
        ¬ ∃ factor : Int, ((4 : Int) : ℚ) = factor * fraction.value := by
  have hrange : IntegerRange.ofConstraints { spacedBounds 4 6 with multipleOf := some fraction } =
      .ok ⟨4, 6, none⟩ := by decide +kernel
  refine ⟨rfl, by rw [value_fraction]; decide +kernel, .leaf (IntegerRange.leaf ⟨4, 6, none⟩), _,
    (Scope.compile_integer_eq_ok rfl).mpr ⟨_, _, ofNode_spaced 4 6 _, hrange, rfl⟩, rfl, ?_⟩
  rintro ⟨factor, hmultiple⟩
  rw [value_fraction, mul_div_assoc', eq_div_iff (by decide)] at hmultiple
  have hproduct : 4 * 2 = factor * 5 := by exact_mod_cast hmultiple
  omega

end Multiples

end Specimen
