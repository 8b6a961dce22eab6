import Specimen.Proofs.Defaults
import Specimen.Proofs.IntegerSpellings
import Specimen.Proofs.KeptKeywords
import Specimen.Proofs.Satisfying
import Specimen.Proofs.WrittenBounds

/-!
# What compiled nodes accept

A value of the type of its node that keeps every keyword as it is read is accepted exactly if it lies
within the ends that are filled in for the keywords that are missing, but for integers that rounding
does not spare. As they are written the keywords say less: a value may keep them and be turned down
for such an end, for a number that has no double, or for an integer beyond 64 bits.
-/

namespace Specimen

/-! ### Values that are judged -/

/-- A generator accepts a value if something holds, and turns it down if not. -/
def Generator.JudgesBy (generator : Generator) (value : Json) (holds : Prop) : Prop :=
  (holds → generator.validate value = some true) ∧
    (¬ holds → generator.validate value = some false)

section Kinds

open Json

variable {engine : Pattern.Engine} {name : String} {node : Json} {generator : Generator}

theorem Generator.judgesBy_of_iff {value : Json} {judgement : Bool} {holds : Prop}
    (h : generator.validate value = some judgement) (hiff : judgement = true ↔ holds) :
    generator.JudgesBy value holds := by
  rw [JudgesBy, h, ← hiff]
  cases judgement <;> simp

/-- An integer is taken for itself if it has 64 bits, the least of them only if it is no float. -/
theorem IntegerRange.integer?_of_written {value : Json} {n : Int} (hwell : value.WellFormed)
    (hvalue : value.written? = some (n : ℚ)) (hleast : n = Double.minInt64 → value = .int n) :
    integer? value = if Fits n then some n else none := by
  cases value with
  | int m =>
      obtain rfl : m = n := Int.cast_injective (Option.some.inj hvalue)
      rw [integer?, Json.int64?]
      by_cases hfits : Fits m
      · have hpair : Double.minInt64 ≤ m ∧ m ≤ Double.maxInt64 := hfits
        rw [if_pos hfits, if_pos hpair]
      · obtain ⟨hlow, hhigh⟩ := hwell
        have hbeyond : 0x8000000000000000 ≤ m := by
          unfold Fits Double.maxInt64 at hfits
          omega
        have hdenotes := Double.denotes_nearest (n := m) (by omega)
        have hlarge : (Double.ofInt m).lt limit = false := by
          rw [Bool.eq_false_iff, Ne, hdenotes.lt_iff denotes_limit]
          exact Int.not_lt.mpr (denotes_limit.le_nearest hbeyond)
        have hnone : ¬ (Double.minInt64 ≤ m ∧ m ≤ Double.maxInt64) := hfits
        simp [Json.double?, hlarge, hfits, hnone]
  | float x =>
      have hdenotes := Double.denotes_of_value hwell (Option.some.inj hvalue)
      have hne : n ≠ Double.minInt64 := by
        rintro rfl
        cases hleast rfl
      rw [integer?_float_of_denotes hdenotes]
      refine if_congr ⟨fun h => ⟨h.1.le, h.2⟩, fun h => ⟨?_, h.2⟩⟩ rfl rfl
      exact lt_of_le_of_ne h.1 hne.symm
  | null | bool | str | arr | obj => cases hvalue

/-- Of the integers that keep the keywords of an integer node and that rounding spares, those of 64
bits within the defaults are accepted. -/
theorem judges_integer (hwell : node.WellFormed) (htype : node.OfType .integer)
    (hcompile : Scope.compile ⟨name, .standard engine⟩ node = .ok generator) :
    ∃ c, Constraints.ofNode node = .ok c ∧ ∀ (value : Json) (n : Int), value.WellFormed →
      value.written? = some (n : ℚ) → node.KeepsBounds read? n → node.KeepsMultiple read? n →
      (n = Double.minInt64 → value = .int n ∧
        ∀ multiple, c.multipleOf = some multiple → multiple.value < 2 ^ 63) →
      IntegerRange.Spared c n →
      generator.JudgesBy value (IntegerRange.Fits n ∧ IntegerRange.WithinDefaults c n) := by
  cases Scope.compilesAs_of_ofType htype hcompile with
  | @leaf _ c _ hread builds =>
      cases builds with
      | integer built =>
          obtain ⟨range, hrange, rfl⟩ := Outcome.map_eq_ok.mp built
          refine ⟨c, hread, fun value n hvalue hwritten hbounds hmultiple hleast hspared => ?_⟩
          have hint := IntegerRange.integer?_of_written hvalue hwritten fun h => (hleast h).1
          by_cases hn : IntegerRange.Fits n
          · obtain ⟨hbelow, habove⟩ := hbounds.allows hwell hread
            have hstep : ∀ step, range.step = some step → step ∣ n := by
              intro step hstep
              rw [IntegerRange.step_of_ofConstraints hrange] at hstep
              obtain ⟨multiple, hfound, htaken⟩ := Option.bind_eq_some_iff.mp hstep
              exact hmultiple.dvd hwell hread hn (fun h => (hleast h).2 multiple hfound) hfound
                htaken
            have hvalidate : range.leaf.validate value = some (range.contains n) := by
              simp only [IntegerRange.leaf, hint, if_pos hn]
            refine Generator.judgesBy_of_iff hvalidate ?_
            rw [IntegerRange.contains_iff, and_iff_left hstep, and_iff_right hn]
            exact IntegerRange.mem_iff_withinDefaults hrange hn
              (fun _ => Constraints.isFinite_of_ofNode hwell hread) hbelow habove hspared
          · have hvalidate : range.leaf.validate value = some false := by
              simp only [IntegerRange.leaf, hint, if_neg hn]
            exact Generator.judgesBy_of_iff hvalidate
              (iff_of_false Bool.false_ne_true fun h => hn h.1)

theorem judges_number (hwell : node.WellFormed) (htype : node.OfType .number)
    (hcompile : Scope.compile ⟨name, .standard engine⟩ node = .ok generator) :
    ∃ c, Constraints.ofNode node = .ok c ∧
      ∀ (value : Json) (x : ℚ), value.WellFormed → value.read? = some x →
      node.KeepsBounds read? x → generator.JudgesBy value (NumberRange.WithinDefaults c x) := by
  cases Scope.compilesAs_of_ofType htype hcompile with
  | @leaf _ c _ hread builds =>
      cases builds with
      | number built =>
          obtain ⟨range, hrange, rfl⟩ := Outcome.map_eq_ok.mp built
          refine ⟨c, hread, fun value x hvalue hx hbounds => ?_⟩
          obtain ⟨found, hfound, rfl⟩ := Option.map_eq_some_iff.mp hx
          have hfinite := isFinite_of_double? hvalue hfound
          obtain ⟨hbelow, habove⟩ := hbounds.allows hwell hread
          have hvalidate : range.leaf.validate value = some (range.contains found) := by
            simp only [NumberRange.leaf, hfound]
          exact Generator.judgesBy_of_iff hvalidate
            (NumberRange.contains_iff_withinDefaults hrange hfinite hbelow habove)

theorem judges_text (hwell : node.WellFormed) (htype : node.OfType .string)
    (hpattern : node.value? "pattern" = none) (hformat : node.value? "format" = none)
    (hcompile : Scope.compile ⟨name, .standard engine⟩ node = .ok generator) :
    ∃ c, Constraints.ofNode node = .ok c ∧ ∀ text : String,
      node.KeepsCounts "minLength" "maxLength" text.toList.length →
      generator.JudgesBy (.str text) (Lengths.TextWithinDefaults c text.toList.length) := by
  cases Scope.compilesAs_of_ofType htype hcompile with
  | @leaf _ c _ hread builds =>
      have hreads := Constraints.reads_value? hwell hread
      have hnoPattern : c.pattern = none := by
        have hset := hreads.pattern
        rw [hpattern] at hset
        exact hset
      have hnoFormat : c.format = none := by
        have hset := hreads.format
        rw [hformat] at hset
        exact hset
      cases builds with
      | pattern written => simp [hnoPattern] at written
      | format _ written => simp [hnoFormat] at written
      | text _ _ built =>
          obtain ⟨lengths, hlengths, rfl⟩ := Outcome.map_eq_ok.mp built
          refine ⟨c, hread, fun text hcounts => ?_⟩
          have hkeeps := hcounts.keeps hreads.minLength hreads.maxLength
          exact Generator.judgesBy_of_iff (Lengths.validate_textLeaf lengths text)
            (Lengths.contains_iff_textWithinDefaults hlengths hkeeps)

theorem judges_list (hwell : node.WellFormed) (htype : node.OfType .array)
    (hplain : ∀ places, node.itemSchema ≠ .arr places)
    (hcompile : Scope.compile ⟨name, .standard engine⟩ node = .ok generator) :
    ∃ c item, Constraints.ofNode node = .ok c ∧
      Scope.compile ⟨name, .standard engine⟩ node.itemSchema = .ok item ∧ ∀ values : List Json,
      node.KeepsCounts "minItems" "maxItems" values.length →
      (∀ value ∈ values, item.Accepts value) →
      generator.JudgesBy (.arr values) (Lengths.ListWithinDefaults c values.length) := by
  cases Scope.compilesAs_of_ofType htype hcompile with
  | leaf _ builds => cases builds
  | @tuple places items present _ =>
      refine absurd ?_ (hplain places)
      rw [itemSchema, present, Option.getD_some]
  | @list c item lengths _ hread hitem hlengths =>
      refine ⟨c, item, hread, hitem, fun values hcounts haccepts => ?_⟩
      have hreads := Constraints.reads_value? hwell hread
      have hkeeps := hcounts.keeps hreads.minItems hreads.maxItems
      have hall : (values.all fun value => (item.validate value).getD true) = true := by
        rw [List.all_eq_true]
        intro value hvalue
        exact Generator.accepts_iff.mp (haccepts value hvalue)
      have hvalidate : (Generator.list item lengths).validate (.arr values) =
          some (lengths.contains values.length) := by
        simp only [Generator.validate, hall, Bool.and_true]
      exact Generator.judgesBy_of_iff hvalidate
        (Lengths.contains_iff_listWithinDefaults hlengths hkeeps)

end Kinds

/-- Of the values that keep the keywords of a node as they are read, those within the defaults are
accepted and all others are turned down, apart from integers that rounding does not spare. -/
theorem judges_of_keeps {engine : Pattern.Engine} {name : String} {node : Json}
    {generator : Generator} (hwell : node.WellFormed)
    (hcompile : Scope.compile ⟨name, .standard engine⟩ node = .ok generator) :
    (node.OfType .integer → ∃ c, Constraints.ofNode node = .ok c ∧
      ∀ (value : Json) (n : Int), value.WellFormed → value.written? = some (n : ℚ) →
        node.KeepsBounds Json.read? n → node.KeepsMultiple Json.read? n →
        (n = Double.minInt64 → value = .int n ∧
          ∀ multiple, c.multipleOf = some multiple → multiple.value < 2 ^ 63) →
        IntegerRange.Spared c n →
        generator.JudgesBy value (IntegerRange.Fits n ∧ IntegerRange.WithinDefaults c n)) ∧
    (node.OfType .number → ∃ c, Constraints.ofNode node = .ok c ∧
      ∀ (value : Json) (x : ℚ), value.WellFormed → value.read? = some x →
        node.KeepsBounds Json.read? x →
        generator.JudgesBy value (NumberRange.WithinDefaults c x)) ∧
    (node.OfType .string → node.value? "pattern" = none → node.value? "format" = none →
      ∃ c, Constraints.ofNode node = .ok c ∧ ∀ text : String,
        node.KeepsCounts "minLength" "maxLength" text.toList.length →
        generator.JudgesBy (.str text) (Lengths.TextWithinDefaults c text.toList.length)) ∧
    (node.OfType .array → (∀ places, node.itemSchema ≠ .arr places) →
      ∃ c item, Constraints.ofNode node = .ok c ∧
        Scope.compile ⟨name, .standard engine⟩ node.itemSchema = .ok item ∧ ∀ values : List Json,
        node.KeepsCounts "minItems" "maxItems" values.length →
        (∀ value ∈ values, item.Accepts value) →
        generator.JudgesBy (.arr values) (Lengths.ListWithinDefaults c values.length)) :=
  ⟨fun htype => judges_integer hwell htype hcompile,
    fun htype => judges_number hwell htype hcompile,
    fun htype hpattern hformat => judges_text hwell htype hpattern hformat hcompile,
    fun htype hplain => judges_list hwell htype hplain hcompile⟩

/-! ### Nodes with little written on them -/

namespace Sample

/-- A node of one type with some other members. -/
def typedNode (type : TypeName) (members : List (String × Json)) : Json :=
  .obj (("type", .str type.text) :: members)

/-- Multiples of five from ten on. -/
def fives : Json :=
  typedNode .integer [("minimum", .int 10), ("multipleOf", .int 5)]

/-- What is read from the node. -/
def fivesBounds : Constraints :=
  { Constraints.none with
    minimum := some (Double.ofInt 10)
    multipleOf := some (Double.ofInt 5) }

theorem least_inclusive {n : Int} (h : Short n) :
    IntegerRange.least ⟨Double.ofInt n, false⟩ = .ok n := by
  unfold Short at h
  have hreach : Reachable n := by
    unfold Reachable Double.minInt64
    omega
  refine (IntegerRange.least_eq (Double.denotes_ofInt_of_le h) hreach).trans (if_neg ?_)
  change ¬ 0x8000000000000000 ≤ n
  omega

theorem ofConstraints_fivesBounds :
    IntegerRange.ofConstraints fivesBounds = .ok ⟨10, 1010, some 5⟩ := by
  have hfive : fivesBounds.multipleOf.bind IntegerRange.stepOf = some 5 := by
    have hread : fivesBounds.multipleOf = some (Double.ofInt 5) := rfl
    have hdenotes : (Double.ofInt 5).Denotes 5 := Double.denotes_ofInt_of_le (by decide)
    rw [hread, Option.bind_some, IntegerRange.stepOf_of_denotes hdenotes (by decide)]
    decide
  refine IntegerRange.ofConstraints_eq_ok.mpr ⟨some 10, none, ?_, rfl, by decide, ?_, ?_⟩
  · exact IntegerRange.mapM_some_eq_ok.mpr ⟨10, least_inclusive (by decide), rfl⟩
  · intro step hstep
    obtain rfl : 5 = step := Option.some.inj (hfive.symm.trans hstep)
    decide
  · rw [hfive]
    rfl

theorem compile_fives : Scope.compile ⟨"Test", Library.standard⟩ fives =
    .ok (.leaf (IntegerRange.leaf ⟨10, 1010, some 5⟩)) :=
  (Scope.compile_integer_eq_ok rfl).mpr ⟨fivesBounds, _, rfl, ofConstraints_fivesBounds, rfl⟩

theorem withinDefaults_fivesBounds {n : Int} :
    IntegerRange.WithinDefaults fivesBounds n ↔ n ≤ 1010 := by
  have hlower : fivesBounds.lower = some ⟨Double.ofInt 10, false⟩ := rfl
  have hupper : fivesBounds.upper = none := rfl
  have hten : (Double.ofInt 10).Denotes 10 := Double.denotes_ofInt_of_le (by decide)
  have houtermost : Side.lower.outermost ⟨Double.ofInt 10, false⟩ = 10 := hten.ceilInt
  simp only [IntegerRange.WithinDefaults, hlower, hupper, houtermost, IntegerRange.defaultSpan]
  exact Iff.rfl

theorem spared_fivesBounds {n : Int} : IntegerRange.Spared fivesBounds n where
  lower := Side.clears_of_inclusive rfl
  upper := Side.clears_none
  least _ := Side.exact_of_inclusive rfl
  greatest := by rintro ⟨⟩

theorem keepsBounds_fives {n : Int} (h : 10 ≤ n) : fives.KeepsBounds Json.read? n := by
  have hten : (Double.ofInt 10).Denotes 10 := Double.denotes_ofInt_of_le (by decide)
  refine ⟨.of_inclusive ?_, Json.keepsSide_none⟩
  rintro _ ⟨⟩
  change (Double.ofInt 10).value ≤ n
  rw [hten.value]
  exact Int.cast_le.mpr h

theorem keepsMultiple_fives (factor : Int) : fives.KeepsMultiple Json.read? (factor * 5 : Int) := by
  have hfive : (Double.ofInt 5).Denotes 5 := Double.denotes_ofInt_of_le (by decide)
  rintro _ ⟨⟩
  exact ⟨factor, by rw [hfive.value, Int.cast_mul]⟩

theorem keepsBounds_bare (number? : Json → Option ℚ) (type : TypeName) (x : ℚ) :
    (typedNode type []).KeepsBounds number? x :=
  ⟨Json.keepsSide_none, Json.keepsSide_none⟩

theorem compile_bareNumber : Scope.compile ⟨"Test", Library.standard⟩ (typedNode .number []) =
    .ok (.leaf (NumberRange.leaf ⟨Double.zero, Double.ofInt 1000, false, false⟩)) := by
  have hzero := Constraints.denotes_zero
  have hthousand : (Double.ofInt 1000).Denotes 1000 := Double.denotes_ofInt_of_le (by decide)
  have hdrawable : NumberRange.Drawable ⟨Double.zero, Double.ofInt 1000, false, false⟩ :=
    { low := hzero.finite
      high := hthousand.finite
      ordered := by
        rw [← Double.units_le_iff, hzero.units, hthousand.units]
        exact Int.mul_le_mul_of_nonneg_right (by decide) Double.one_pos.le
      single := fun _ => ⟨rfl, rfl⟩ }
  have hrange : NumberRange.ofConstraints Constraints.none =
      .ok ⟨Double.zero, Double.ofInt 1000, false, false⟩ :=
    NumberRange.ofConstraints_eq_ok_iff.mpr ⟨hdrawable, rfl⟩
  exact Scope.compile_of_buildsLeaf ⟨_, rfl, rfl⟩ rfl (.number (Outcome.map_eq_ok.mpr ⟨_, hrange, rfl⟩))

theorem compile_bareText : Scope.compile ⟨"Test", Library.standard⟩ (typedNode .string []) =
    .ok (.leaf (Lengths.textLeaf ⟨1, 16, by decide⟩)) :=
  Scope.compile_of_buildsLeaf ⟨_, rfl, rfl⟩ rfl (.text rfl rfl rfl)

theorem compile_bareList : Scope.compile ⟨"Test", Library.standard⟩ (typedNode .array []) =
    .ok (.list .empty ⟨0, 5, by decide⟩) := by
  have hkind : classify (typedNode .array []) = .ok (.single .array) := rfl
  rw [Scope.compile_of_classify hkind, Scope.compileKind, Scope.compileType, Scope.compileArray]
  rfl

theorem itemSchema_bareList (places : List Json) :
    (typedNode .array []).itemSchema ≠ .arr places := by
  rintro ⟨⟩

/-- Fifteen and five thousand are multiples of five from ten on, and only the first is within a
thousand of ten. Without keywords five is accepted as a number and two nulls as a list, and no text
is as long as none. -/
theorem judges_of_keeps_fives :
    (∃ generator, Scope.compile ⟨"Test", Library.standard⟩ fives = .ok generator ∧
      generator.validate (.int 15) = some true ∧ generator.validate (.int 5000) = some false) ∧
    (∃ generator, Scope.compile ⟨"Test", Library.standard⟩ (typedNode .number []) = .ok generator ∧
      generator.validate (.int 5) = some true) ∧
    (∃ generator, Scope.compile ⟨"Test", Library.standard⟩ (typedNode .string []) = .ok generator ∧
      generator.validate (.str "") = some false) ∧
    ∃ generator, Scope.compile ⟨"Test", Library.standard⟩ (typedNode .array []) = .ok generator ∧
      generator.validate (.arr [.null, .null]) = some true := by
  have hbare (type : TypeName) : (typedNode type []).WellFormed :=
    ⟨List.nodup_singleton _, trivial, trivial⟩
  refine ⟨?_, ?_, ?_, ?_⟩
  · have hwell : fives.WellFormed :=
      ⟨by decide, trivial, wellFormed_int (by decide), wellFormed_int (by decide), trivial⟩
    obtain ⟨c, hread, hjudges⟩ := (judges_of_keeps hwell compile_fives).1 ⟨_, rfl, rfl⟩
    obtain rfl : fivesBounds = c := Except.ok.inj hread
    refine ⟨_, compile_fives, ?_, ?_⟩
    · exact (hjudges (.int 15) 15 (wellFormed_int (by decide)) rfl (keepsBounds_fives (by decide))
        (keepsMultiple_fives 3) (fun hfar => absurd hfar (by decide)) spared_fivesBounds).1
          ⟨by decide, withinDefaults_fivesBounds.mpr (by decide)⟩
    · refine (hjudges (.int 5000) 5000 (wellFormed_int (by decide)) rfl
        (keepsBounds_fives (by decide)) (keepsMultiple_fives 1000)
        (fun hfar => absurd hfar (by decide)) spared_fivesBounds).2 ?_
      rintro ⟨-, hwithin⟩
      exact absurd (withinDefaults_fivesBounds.mp hwithin) (by decide)
  · obtain ⟨c, hread, hjudges⟩ := (judges_of_keeps (hbare _) compile_bareNumber).2.1 ⟨_, rfl, rfl⟩
    cases hread
    have hfive : (Double.ofInt 5).Denotes 5 := Double.denotes_ofInt_of_le (by decide)
    refine ⟨_, compile_bareNumber, (hjudges (.int 5) _ (wellFormed_int (by decide)) rfl
      (keepsBounds_bare _ _ _)).1 ?_⟩
    change 0 ≤ (Double.ofInt 5).value ∧ (Double.ofInt 5).value ≤ 1000
    rw [hfive.value]
    norm_num
  · obtain ⟨c, hread, hjudges⟩ :=
      (judges_of_keeps (hbare _) compile_bareText).2.2.1 ⟨_, rfl, rfl⟩ rfl rfl
    cases hread
    refine ⟨_, compile_bareText, (hjudges "" (Json.keepsCounts_of_none rfl rfl)).2 fun hwithin => ?_⟩
    obtain ⟨⟨⟩⟩ | hlength := hwithin.least rfl
    exact absurd hlength (by decide)
  · obtain ⟨c, item, hread, hitem, hjudges⟩ :=
      (judges_of_keeps (hbare _) compile_bareList).2.2.2 ⟨_, rfl, rfl⟩ itemSchema_bareList
    cases hread
    cases (Scope.compile_emptySchema _).symm.trans hitem
    exact ⟨_, compile_bareList, (hjudges [.null, .null] (Json.keepsCounts_of_none rfl rfl)
      fun value _ => Generator.accepts_empty value).1 fun _ => by decide⟩

/-! ### Values that are turned down -/

/-- A value has the type of a node and keeps its keywords as they are written. -/
inductive Fulfils (node : Json) : Json → Prop where
  | integer {value : Json} {n : Int} (type : node.OfType .integer)
      (number : value.written? = some (n : ℚ)) (bounds : node.KeepsBounds Json.written? n)
      (multiple : node.KeepsMultiple Json.written? n) : Fulfils node value
  | number {value : Json} {x : ℚ} (type : node.OfType .number) (number : value.written? = some x)
      (bounds : node.KeepsBounds Json.written? x) (multiple : node.KeepsMultiple Json.written? x) :
      Fulfils node value
  | text {text : String} (type : node.OfType .string) (noPattern : node.value? "pattern" = none)
      (noFormat : node.value? "format" = none)
      (counts : node.KeepsCounts "minLength" "maxLength" text.toList.length) :
      Fulfils node (.str text)
  | list {values : List Json} {item : Generator} (type : node.OfType .array)
      (plain : ∀ places, node.itemSchema ≠ .arr places)
      (compiled : Scope.compile ⟨"Test", Library.standard⟩ node.itemSchema = .ok item)
      (accepted : ∀ value ∈ values, item.Accepts value)
      (counts : node.KeepsCounts "minItems" "maxItems" values.length) : Fulfils node (.arr values)

/-- A value is turned down by a node that it fulfils. -/
structure TurnedDown (node value : Json) : Prop where
  wellFormed : node.WellFormed ∧ value.WellFormed
  fulfils : Fulfils node value
  judged : ∃ generator, Scope.compile ⟨"Test", Library.standard⟩ node = .ok generator ∧
    generator.validate value = some false

section TurnedDown

variable {node value : Json} {c : Constraints} {min max n : Int} {others : List (String × Json)}

theorem turnedDown_integer {range : IntegerRange} (hwell : node.WellFormed ∧ value.WellFormed)
    (hkind : classify node = .ok (.single .integer)) (hnumber : value.written? = some (n : ℚ))
    (hbounds : node.KeepsBounds Json.written? n) (hmultiple : node.KeepsMultiple Json.written? n)
    (hread : Constraints.ofNode node = .ok c) (hrange : IntegerRange.ofConstraints c = .ok range)
    (hjudged : range.leaf.validate value = some false) : TurnedDown node value where
  wellFormed := hwell
  fulfils := .integer ⟨_, hkind, rfl⟩ hnumber hbounds hmultiple
  judged := ⟨.leaf range.leaf,
    (Scope.compile_integer_eq_ok hkind).mpr ⟨c, range, hread, hrange, rfl⟩, hjudged⟩

theorem turnedDown_number {range : NumberRange} {x : ℚ} (hwell : node.WellFormed ∧ value.WellFormed)
    (hkind : classify node = .ok (.single .number)) (hnumber : value.written? = some x)
    (hbounds : node.KeepsBounds Json.written? x) (hmultiple : node.KeepsMultiple Json.written? x)
    (hread : Constraints.ofNode node = .ok c) (hrange : NumberRange.ofConstraints c = .ok range)
    (hjudged : range.leaf.validate value = some false) : TurnedDown node value where
  wellFormed := hwell
  fulfils := .number ⟨_, hkind, rfl⟩ hnumber hbounds hmultiple
  judged := ⟨.leaf range.leaf, Scope.compile_of_buildsLeaf ⟨_, hkind, rfl⟩ hread
    (.number (Outcome.map_eq_ok.mpr ⟨range, hrange, rfl⟩)), hjudged⟩

theorem keepsBounds_betweenNode (hmin : min ≤ n) (hmax : n ≤ max)
    (hlow : (betweenNode min max others).value? "exclusiveMinimum" = none)
    (hhigh : (betweenNode min max others).value? "exclusiveMaximum" = none) :
    (betweenNode min max others).KeepsBounds Json.written? n where
  lower := by
    rw [hlow]
    refine .of_inclusive ?_
    rintro _ ⟨⟩
    exact Int.cast_le.mpr hmin
  upper := by
    rw [hhigh]
    refine .of_inclusive ?_
    rintro _ ⟨⟩
    exact Int.cast_le.mpr hmax

/-- Without keywords a node still has ends that a value may lie outside of. -/
theorem turnedDown_bare :
    TurnedDown (typedNode .integer []) (.int 5000) ∧
      TurnedDown (typedNode .number []) (.float (Double.ofInt 5000)) ∧
      TurnedDown (typedNode .string []) (.str "") ∧
      TurnedDown (typedNode .array []) (.arr (List.replicate 6 .null)) := by
  refine ⟨?_, ?_, ?_, ?_⟩
  · have hrange : IntegerRange.ofConstraints Constraints.none = .ok ⟨0, 1000, none⟩ := by decide
    exact turnedDown_integer ⟨⟨by decide, trivial, trivial⟩, by decide, by decide⟩ rfl rfl
      (keepsBounds_bare _ _ _) (Json.keepsMultiple_of_none rfl) rfl hrange (by decide)
  · have hthousand : (Double.ofInt 1000).Denotes 1000 := Double.denotes_ofInt_of_le (by decide)
    have hfar : (Double.ofInt 5000).Denotes 5000 := Double.denotes_ofInt_of_le (by decide)
    have hbeyond : (Double.ofInt 5000).le (Double.ofInt 1000) = false := by
      rw [Bool.eq_false_iff, Ne, hfar.le_iff hthousand]
      decide
    have hjudged : (NumberRange.leaf ⟨Double.zero, Double.ofInt 1000, false, false⟩).validate
        (.float (Double.ofInt 5000)) = some false := by
      simp [NumberRange.validate_leaf_float, NumberRange.contains, hbeyond]
    exact ⟨⟨⟨by decide, trivial, trivial⟩, hfar.finite⟩,
      .number ⟨_, rfl, rfl⟩ rfl (keepsBounds_bare _ _ _) (Json.keepsMultiple_of_none rfl),
      _, compile_bareNumber, hjudged⟩
  · exact ⟨⟨⟨by decide, trivial, trivial⟩, trivial⟩,
      .text ⟨_, rfl, rfl⟩ rfl rfl (Json.keepsCounts_of_none rfl rfl), _, compile_bareText, rfl⟩
  · exact ⟨⟨⟨by decide, trivial, trivial⟩, trivial, trivial, trivial, trivial, trivial, trivial,
      trivial⟩, .list ⟨_, rfl, rfl⟩ itemSchema_bareList (Scope.compile_emptySchema _)
      (fun value _ => Generator.accepts_empty value) (Json.keepsCounts_of_none rfl rfl),
      _, compile_bareList, rfl⟩

/-- Bounds and steps that have no double turn down the numbers they are rounded past. -/
theorem turnedDown_rounded :
    TurnedDown (betweenNode 9007199254740995 9007199254740997 []) (.int 9007199254740995) ∧
      TurnedDown (betweenNode 0 0x1000000000000000 [("multipleOf", .int 9007199254740993)])
        (.int 9007199254740993) ∧
      TurnedDown (typedNode .number [("minimum", .int 0),
        ("exclusiveMaximum", .int 9007199254740996)]) (.int 9007199254740995) := by
  refine ⟨?_, ?_, ?_⟩
  · have hrange : IntegerRange.ofConstraints (spacedBounds 9007199254740995 9007199254740997) =
        .ok ⟨9007199254740996, 9007199254740996, none⟩ := by decide +kernel
    have hwell : (betweenNode 9007199254740995 9007199254740997 []).WellFormed :=
      ⟨by decide, trivial, wellFormed_int (by decide), wellFormed_int (by decide), trivial⟩
    exact turnedDown_integer ⟨hwell, wellFormed_int (by decide)⟩ rfl rfl
      (keepsBounds_betweenNode (by decide) (by decide) rfl rfl) (Json.keepsMultiple_of_none rfl)
      rfl hrange (by decide)
  · have hrange : IntegerRange.ofConstraints
        { spacedBounds 0 0x1000000000000000 with
          multipleOf := some (Double.ofInt 9007199254740993) } =
            .ok ⟨0, 0x1000000000000000, some 9007199254740992⟩ := by decide +kernel
    have hwell : (betweenNode 0 0x1000000000000000
        [("multipleOf", .int 9007199254740993)]).WellFormed :=
      ⟨by decide, trivial, wellFormed_int (by decide), wellFormed_int (by decide),
        wellFormed_int (by decide), trivial⟩
    have hmultiple : (betweenNode 0 0x1000000000000000
        [("multipleOf", .int 9007199254740993)]).KeepsMultiple Json.written?
          (9007199254740993 : Int) := by
      rintro _ ⟨⟩
      exact ⟨1, (one_mul _).symm⟩
    exact turnedDown_integer ⟨hwell, wellFormed_int (by decide)⟩ rfl rfl
      (keepsBounds_betweenNode (by decide) (by decide) rfl rfl) hmultiple rfl hrange (by decide)
  · have hrange : NumberRange.ofConstraints { Constraints.none with
        minimum := some (Double.ofInt 0)
        exclusiveMaximum := some (.bound (Double.ofInt 9007199254740996)) } =
          .ok ⟨Double.ofInt 0, Double.ofInt 9007199254740996, false, true⟩ := by decide +kernel
    have hwell : (typedNode .number [("minimum", .int 0),
        ("exclusiveMaximum", .int 9007199254740996)]).WellFormed :=
      ⟨by decide, trivial, wellFormed_int (by decide), wellFormed_int (by decide), trivial⟩
    have hbounds : (typedNode .number [("minimum", .int 0),
        ("exclusiveMaximum", .int 9007199254740996)]).KeepsBounds Json.written?
          (9007199254740995 : Int) := by
      refine ⟨.of_inclusive ?_, .of_exclusive ?_⟩
      · rintro _ ⟨⟩
        norm_num [Side.Reaches]
      · rintro _ ⟨⟩
        norm_num [Side.Passes]
    exact turnedDown_number ⟨hwell, wellFormed_int (by decide)⟩ rfl rfl hbounds
      (Json.keepsMultiple_of_none rfl) rfl hrange (by decide +kernel)

theorem greatest_unsigned :
    IntegerRange.greatest ⟨Double.ofInt 0xffffffffffffffff, false⟩ = .ok Double.maxInt64 := by
  have hlimit := IntegerRange.denotes_limit
  have hfloor := (Double.denotes_nearest (n := 0xffffffffffffffff) (by decide)).floor
  have hlarge : 0x8000000000000000 ≤ Double.nearest 0xffffffffffffffff :=
    hlimit.le_nearest (by decide)
  simp only [IntegerRange.greatest, Bool.false_eq_true, if_false, hfloor.lt_iff hlimit.neg,
    hlimit.le_iff hfloor, if_pos hlarge]
  exact if_neg (Int.not_lt.mpr (Int.le_trans (by decide) hlarge))

/-- An integer that does not have 64 bits is turned down. -/
theorem turnedDown_unsigned :
    TurnedDown (betweenNode 0 0xffffffffffffffff []) (.int 0x8000000000000000) := by
  have hrange : IntegerRange.ofConstraints (spacedBounds 0 0xffffffffffffffff) =
      .ok ⟨0, Double.maxInt64, none⟩ :=
    IntegerRange.ofConstraints_eq_ok.mpr ⟨some 0, some Double.maxInt64,
      IntegerRange.mapM_some_eq_ok.mpr ⟨0, least_inclusive (by decide), rfl⟩,
      IntegerRange.mapM_some_eq_ok.mpr ⟨_, greatest_unsigned, rfl⟩, by decide,
      by rintro _ ⟨⟩, rfl⟩
  have hjudged : (IntegerRange.leaf ⟨0, Double.maxInt64, none⟩).validate
      (.int 0x8000000000000000) = some false := by
    have hvalue : (Json.int 0x8000000000000000).WellFormed := ⟨by decide, by decide⟩
    have hnone : IntegerRange.integer? (.int 0x8000000000000000) = none :=
      (IntegerRange.integer?_of_written hvalue rfl fun _ => rfl).trans (if_neg (by decide))
    simp only [IntegerRange.leaf, hnone]
  have hwell : (betweenNode 0 0xffffffffffffffff []).WellFormed :=
    ⟨by decide, trivial, wellFormed_int (by decide), ⟨by decide, by decide⟩, trivial⟩
  exact turnedDown_integer ⟨hwell, by decide, by decide⟩ rfl rfl
    (keepsBounds_betweenNode (by decide) (by decide) rfl rfl) (Json.keepsMultiple_of_none rfl)
    rfl hrange hjudged

/-- A value that keeps its keywords as they are written is turned down for an end that is filled in,
for a number that has no double, or because it does not have 64 bits. -/
theorem turnedDown_values :
    (TurnedDown (typedNode .integer []) (.int 5000) ∧
      TurnedDown (typedNode .number []) (.float (Double.ofInt 5000)) ∧
      TurnedDown (typedNode .string []) (.str "") ∧
      TurnedDown (typedNode .array []) (.arr (List.replicate 6 .null))) ∧
    (TurnedDown (betweenNode 9007199254740995 9007199254740997 []) (.int 9007199254740995) ∧
      TurnedDown (betweenNode 0 0x1000000000000000 [("multipleOf", .int 9007199254740993)])
        (.int 9007199254740993) ∧
      TurnedDown (typedNode .number [("minimum", .int 0),
        ("exclusiveMaximum", .int 9007199254740996)]) (.int 9007199254740995)) ∧
    TurnedDown (betweenNode 0 0xffffffffffffffff []) (.int 0x8000000000000000) :=
  ⟨turnedDown_bare, turnedDown_rounded, turnedDown_unsigned⟩

end TurnedDown

end Sample

end Specimen
