import Specimen.Proofs.Compiling
import Specimen.Proofs.ExactValues
import Specimen.Proofs.Generating

/-!
# What the leaves of the standard library give

An integer leaf gives integers of its range and a text leaf texts of its lengths, whatever the words
of the source are. The bounds of an integer range lie inside 64 bits, where a width of all of them is
read off a word as it is, and a step is at least one, so that there are multiples to draw.
-/

namespace Specimen

theorem Outcome.check_eq_ok {ε α : Type} {p : Prop} [Decidable p] {e : ε} {a b : α} :
    (if p then .error e else .ok a : Except ε α) = .ok b ↔ ¬ p ∧ a = b := by
  split <;> simp [*]

namespace Double

theorem toInt64_mem (x : Double) : minInt64 ≤ x.toInt64 ∧ x.toInt64 ≤ maxInt64 := by
  simp only [toInt64, minInt64, maxInt64]
  split_ifs <;> omega

end Double

namespace Draw

open Double in
theorem intBetween_mem {low high : Int} (hlow : minInt64 ≤ low) (h : low ≤ high)
    (hhigh : high ≤ maxInt64) (s : Source) :
    low ≤ (intBetween low high s).1 ∧ (intBetween low high s).1 ≤ high := by
  unfold minInt64 at hlow
  unfold maxInt64 at hhigh
  have hlt : (below64 (high - low + 1).toNat s).1 < (high - low + 1).toNat :=
    below64_lt (by omega) s
  change low ≤ (if high - low + 1 = 0x10000000000000000 then
      Int.bmod (below64 (high - low + 1).toNat s).1 0x10000000000000000
      else low + ((below64 (high - low + 1).toNat s).1 : Int)) ∧
    (if high - low + 1 = 0x10000000000000000 then
      Int.bmod (below64 (high - low + 1).toNat s).1 0x10000000000000000
      else low + ((below64 (high - low + 1).toNat s).1 : Int)) ≤ high
  split
  · have hleast := Int.le_bmod (x := (below64 (high - low + 1).toNat s).1)
      (m := 0x10000000000000000) (by decide)
    have hgreatest := Int.bmod_lt (x := (below64 (high - low + 1).toNat s).1)
      (m := 0x10000000000000000) (by decide)
    omega
  · omega

theorem length_times {α : Type} (draw : Draw α) (count : Nat) (s : Source) :
    (times draw count s).1.length = count := by
  induction count generalizing s with
  | zero => rfl
  | succ count ih =>
      change ((draw s).1 :: (times draw count (draw s).2).1).length = count + 1
      rw [List.length_cons, ih]

end Draw

namespace IntegerRange

open Double

/-- What a range has that is drawn from: bounds in order inside 64 bits, and a multiple of its step
between them. -/
structure Drawable (range : IntegerRange) : Prop where
  low : minInt64 ≤ range.min
  ordered : range.min ≤ range.max
  high : range.max ≤ maxInt64
  steps : ∀ step, range.step = some step →
    0 < step ∧ ceilDiv range.min step ≤ range.max / step

theorem least_mem {bound : Bound} {n : Int} (h : least bound = .ok n) :
    minInt64 ≤ n ∧ n ≤ maxInt64 := by
  unfold least at h
  generalize (if bound.exclusive = true then bound.value.floor.add (Double.ofInt 1)
    else bound.value.ceil) = lowest at h
  obtain ⟨-, rfl⟩ := Outcome.check_eq_ok.mp h
  exact toInt64_mem _

theorem greatest_mem {bound : Bound} {n : Int} (h : greatest bound = .ok n) :
    minInt64 ≤ n ∧ n ≤ maxInt64 := by
  unfold greatest at h
  generalize (if bound.exclusive = true then bound.value.ceil.sub (Double.ofInt 1)
    else bound.value.floor) = highest at h
  obtain ⟨-, rfl⟩ := Outcome.check_eq_ok.mp h
  cases limit.le highest with
  | true => exact ⟨show minInt64 ≤ maxInt64 by decide, Int.le_refl _⟩
  | false => exact toInt64_mem highest

theorem clamp_mem (n : Int) : minInt64 ≤ clamp n ∧ clamp n ≤ maxInt64 := by
  simp only [clamp, minInt64, maxInt64]
  split_ifs <;> omega

theorem span_mem {lower upper : Option Int}
    (hlower : ∀ n, lower = some n → minInt64 ≤ n ∧ n ≤ maxInt64)
    (hupper : ∀ n, upper = some n → minInt64 ≤ n ∧ n ≤ maxInt64) :
    minInt64 ≤ (span lower upper).1 ∧ (span lower upper).2 ≤ maxInt64 := by
  cases lower with
  | none =>
      cases upper with
      | none => decide
      | some max =>
          have hmax := hupper max rfl
          rw [span]
          split
          · exact ⟨show minInt64 ≤ 0 by decide, hmax.2⟩
          · exact ⟨(clamp_mem _).1, hmax.2⟩
  | some min =>
      have hmin := hlower min rfl
      cases upper with
      | none => exact ⟨hmin.1, (clamp_mem _).2⟩
      | some max => exact ⟨hmin.1, (hupper max rfl).2⟩

/-- A whole step of at least one is taken, the greatest integer in place of a greater one. -/
theorem stepOf_of_denotes {multiple : Double} {step : Int} (h : multiple.Denotes step)
    (hpos : 1 ≤ step) : stepOf multiple = some (Min.min step maxInt64) := by
  have hone : (Double.ofInt 1).Denotes 1 := denotes_ofInt_of_le (by decide)
  have hcut : multiple.toInt64 = Min.min step maxInt64 := by
    rw [h.toInt64, if_neg (Int.not_lt.mpr (Int.le_trans (by decide) hpos))]
    omega
  rw [stepOf, (hone.le_iff h).mpr hpos, isIntegral_iff.mpr ⟨step, h⟩, hcut]
  rfl

theorem exists_denotes_of_stepOf {multiple : Double} {step : Int} (h : stepOf multiple = some step) :
    ∃ k, multiple.Denotes k ∧ 1 ≤ k ∧ Min.min k maxInt64 = step := by
  have htaken := h
  unfold stepOf at h
  split at h
  next hread =>
    obtain ⟨hleast, hwhole⟩ := Bool.and_eq_true_iff.mp hread
    obtain ⟨k, hk⟩ := isIntegral_iff.mp hwhole
    have hone : (Double.ofInt 1).Denotes 1 := denotes_ofInt_of_le (by decide)
    have hpos := (hone.le_iff hk).mp hleast
    rw [stepOf_of_denotes hk hpos] at htaken
    exact ⟨k, hk, hpos, Option.some.inj htaken⟩
  next => cases h

theorem stepOf_pos {multiple : Double} {step : Int} (h : stepOf multiple = some step) :
    0 < step := by
  obtain ⟨k, -, hpos, rfl⟩ := exists_denotes_of_stepOf h
  exact Int.lt_min.mpr ⟨hpos, by decide⟩

theorem mapM_eq_ok {α β : Type} {f : α → Except PrimitiveError β} {x : Option α} {y : Option β}
    (h : x.mapM f = .ok y) {b : β} (hb : y = some b) : ∃ a, f a = .ok b := by
  cases x with
  | none =>
      rw [Option.mapM_none, Outcome.pure_eq_ok] at h
      rw [← h] at hb
      cases hb
  | some a =>
      rw [Option.mapM_some, Outcome.map_eq_ok] at h
      obtain ⟨found, hfound, rfl⟩ := h
      cases hb
      exact ⟨a, hfound⟩

/-- A range spans what the two bounds leave, takes its step from the `multipleOf`, and has a multiple
of it. -/
theorem ofConstraints_eq_ok {c : Constraints} {range : IntegerRange} :
    ofConstraints c = .ok range ↔ ∃ lower upper,
      c.lower.mapM least = .ok lower ∧ c.upper.mapM greatest = .ok upper ∧
      (span lower upper).1 ≤ (span lower upper).2 ∧
      (∀ step, c.multipleOf.bind stepOf = some step →
        ceilDiv (span lower upper).1 step ≤ (span lower upper).2 / step) ∧
      ⟨(span lower upper).1, (span lower upper).2, c.multipleOf.bind stepOf⟩ = range := by
  simp only [ofConstraints, Outcome.bind_eq_ok, between, Outcome.check_eq_ok, Int.not_lt,
    and_assoc, exists_and_left, exists_eq_left']
  refine exists_congr fun lower => and_congr_right fun _ => exists_congr fun upper =>
    and_congr_right fun _ => and_congr_right fun _ => ?_
  cases c.multipleOf.bind stepOf with
  | none => simp [Outcome.pure_eq_ok]
  | some step => simp [withStep, Outcome.check_eq_ok]

theorem drawable_of_ofConstraints {c : Constraints} {range : IntegerRange}
    (h : ofConstraints c = .ok range) : range.Drawable := by
  obtain ⟨lower, upper, hlower, hupper, hordered, hmultiple, rfl⟩ := ofConstraints_eq_ok.mp h
  have hbounds : minInt64 ≤ (span lower upper).1 ∧ (span lower upper).2 ≤ maxInt64 := by
    apply span_mem
    · intro n hn
      obtain ⟨bound, hbound⟩ := mapM_eq_ok hlower hn
      exact least_mem hbound
    · intro n hn
      obtain ⟨bound, hbound⟩ := mapM_eq_ok hupper hn
      exact greatest_mem hbound
  refine ⟨hbounds.1, hordered, hbounds.2, fun step hstep => ⟨?_, hmultiple step hstep⟩⟩
  obtain ⟨multiple, -, hof⟩ := Option.bind_eq_some_iff.mp hstep
  exact stepOf_pos hof

theorem ceilDiv_le_iff {n step k : Int} (hstep : 0 < step) :
    ceilDiv n step ≤ k ↔ n ≤ k * step := by
  rw [ceilDiv]
  split
  next hmultiple =>
    obtain ⟨quotient, rfl⟩ := Int.dvd_of_emod_eq_zero hmultiple
    rw [Int.mul_ediv_cancel_left _ (Int.ne_of_gt hstep), Int.add_zero, Int.mul_comm,
      Int.mul_le_mul_right hstep]
  next hrest =>
    have hne : n ≠ k * step := fun heq => hrest (heq ▸ Int.mul_emod_left k step)
    rw [Int.add_one_le_iff, Int.ediv_lt_iff_lt_mul hstep]
    omega

section Quotients

variable {n step : Int}

/-- Divided by a step an integer of 64 bits stays one, whichever way the quotient is rounded. -/
theorem ceilDiv_mem (hlow : minInt64 ≤ n) (hhigh : n ≤ maxInt64) (hstep : 0 < step) :
    minInt64 ≤ ceilDiv n step ∧ ceilDiv n step ≤ maxInt64 := by
  have hbelow : ¬ ceilDiv n step ≤ minInt64 - 1 := by
    rw [ceilDiv_le_iff hstep]
    unfold minInt64 at hlow ⊢
    omega
  rw [ceilDiv_le_iff hstep]
  unfold maxInt64 at hhigh ⊢
  omega

theorem ediv_mem (hlow : minInt64 ≤ n) (hhigh : n ≤ maxInt64) (hstep : 0 < step) :
    minInt64 ≤ n / step ∧ n / step ≤ maxInt64 := by
  have habove : n / step < maxInt64 + 1 := by
    rw [Int.ediv_lt_iff_lt_mul hstep]
    unfold maxInt64 at hhigh ⊢
    omega
  rw [Int.le_ediv_iff_mul_le hstep]
  unfold minInt64 at hlow ⊢
  omega

end Quotients

theorem draw_of_step {range : IntegerRange} {step : Int} (h : range.step = some step) (s : Source) :
    (range.draw s).1 =
      (Draw.intBetween (ceilDiv range.min step) (range.max / step) s).1 * step := by
  simp only [draw, h]
  rfl

/-- Whatever the source is, the integer drawn is one of the range. -/
theorem contains_draw {range : IntegerRange} (h : range.Drawable) (s : Source) :
    range.contains (range.draw s).1 = true := by
  cases hstep : range.step with
  | none =>
      have hdraw := Draw.intBetween_mem h.low h.ordered h.high s
      simp only [contains, draw, hstep]
      simp [hdraw]
  | some step =>
      obtain ⟨hpos, hmultiple⟩ := h.steps step hstep
      have hmin : minInt64 ≤ range.max := Int.le_trans h.low h.ordered
      have hmax : range.min ≤ maxInt64 := Int.le_trans h.ordered h.high
      have hdraw := Draw.intBetween_mem (ceilDiv_mem h.low hmax hpos).1 hmultiple
        (ediv_mem hmin h.high hpos).2 s
      rw [ceilDiv_le_iff hpos, Int.le_ediv_iff_mul_le hpos, ← draw_of_step hstep s] at hdraw
      simp only [contains, hstep, hdraw, decide_true, Bool.true_and, decide_eq_true_eq]
      rw [draw_of_step hstep s, Int.mul_emod_left]

/-- A range inside a wider one: its bounds lie between the others, and its step is a multiple of the
other step. -/
structure Inside (narrow wide : IntegerRange) : Prop where
  low : wide.min ≤ narrow.min
  high : narrow.max ≤ wide.max
  step : ∀ step, wide.step = some step → ∃ multiple, narrow.step = some multiple ∧ step ∣ multiple

theorem Inside.contains {narrow wide : IntegerRange} (h : narrow.Inside wide) {n : Int}
    (hn : narrow.contains n = true) : wide.contains n = true := by
  simp only [IntegerRange.contains, Bool.and_eq_true, decide_eq_true_eq] at hn ⊢
  obtain ⟨⟨hlow, hhigh⟩, hmultiple⟩ := hn
  refine ⟨⟨Int.le_trans h.low hlow, Int.le_trans hhigh h.high⟩, ?_⟩
  cases hstep : wide.step with
  | none => rfl
  | some step =>
      obtain ⟨multiple, hnarrow, hdvd⟩ := h.step step hstep
      rw [hnarrow, decide_eq_true_eq] at hmultiple
      rw [decide_eq_true_eq]
      exact Int.emod_eq_zero_of_dvd (Int.dvd_trans hdvd (Int.dvd_of_emod_eq_zero hmultiple))

end IntegerRange

namespace Lengths

/-- A text that is drawn has one of the lengths. -/
theorem exists_text_of_gives {lengths : Lengths} {value : Json}
    (h : lengths.textLeaf.Gives value) :
    ∃ text : String, value = .str text ∧ lengths.contains text.toList.length = true := by
  obtain ⟨s, t, h⟩ := h
  obtain ⟨count, u, hcount, h⟩ := Run.bind_eq_ok.mp h
  obtain ⟨characters, v, hcharacters, h⟩ := Run.bind_eq_ok.mp h
  obtain ⟨rfl, -⟩ := Run.pure_eq_ok.mp h
  have hinside := lengths.contains_draw s
  rw [(reserve_eq_ok.mp hcount).1] at hinside
  have hlength := Draw.length_times Draw.alphanumeric count u
  rw [Run.lift_eq_ok.mp hcharacters] at hlength
  refine ⟨_, rfl, ?_⟩
  rw [String.toList_ofList, hlength]
  exact hinside

/-- A text is drawn only if there is room for some of the lengths. -/
theorem min_le_room_of_gives {lengths : Lengths} {value : Json}
    (h : lengths.textLeaf.Gives value) : lengths.min ≤ Buffer.room 1 := by
  obtain ⟨s, t, h⟩ := h
  obtain ⟨count, u, hcount, -⟩ := Run.bind_eq_ok.mp h
  obtain ⟨hdraw, hroom⟩ := reserve_eq_ok.mp hcount
  have hleast := (Draw.natBetween_mem lengths.min_le_max s).1
  rw [← draw, hdraw] at hleast
  exact Nat.le_trans hleast hroom

/-- Some lengths inside wider ones. -/
structure Inside (narrow wide : Lengths) : Prop where
  low : wide.min ≤ narrow.min
  high : narrow.max ≤ wide.max

theorem Inside.contains {narrow wide : Lengths} (h : narrow.Inside wide) {n : Nat}
    (hn : narrow.contains n = true) : wide.contains n = true := by
  simp only [Lengths.contains, Bool.and_eq_true, decide_eq_true_eq] at hn ⊢
  exact ⟨Nat.le_trans h.low hn.1, Nat.le_trans hn.2 h.high⟩

end Lengths

/-- What decides the texts of a node: its pattern, or else its format, or else the lengths. -/
inductive TextRule where
  | pattern (pattern : Pattern)
  | format (format : Format)
  | lengths (lengths : Lengths)

namespace TextRule

def ofConstraints (engine : Pattern.Engine) (c : Constraints) : Except PrimitiveError TextRule :=
  match c.pattern, c.format with
  | some source, _ => pattern <$> engine.read source
  | none, some name => format <$> Format.read name
  | none, none => lengths <$> Lengths.ofText c

def leaf : TextRule → Leaf
  | pattern p => p.leaf
  | format f => f.leaf
  | lengths l => l.textLeaf

/-- A text as a rule writes it: from the tree of the pattern, as a draw of the format, or of one of
the lengths. -/
inductive Writes : TextRule → List Char → Prop where
  | pattern (p : Pattern) (s : Source) : Writes (.pattern p) (p.tree.emit s).1
  | format (f : Format) (s : Source) : Writes (.format f) (f.draw s).1
  | lengths {l : Lengths} {cs : List Char} (inside : l.contains cs.length = true) :
      Writes (.lengths l) cs

theorem exists_text_of_gives {rule : TextRule} {value : Json} (h : rule.leaf.Gives value) :
    ∃ text : String, value = .str text ∧ rule.Writes text.toList := by
  cases rule with
  | pattern p =>
      obtain ⟨s, rfl⟩ := Leaf.gives_lift_iff.mp h
      exact ⟨_, rfl, by rw [String.toList_ofList]; exact .pattern p s⟩
  | format f =>
      obtain ⟨s, rfl⟩ := Leaf.gives_lift_iff.mp h
      exact ⟨_, rfl, by rw [String.toList_ofList]; exact .format f s⟩
  | lengths l =>
      obtain ⟨text, rfl, hinside⟩ := Lengths.exists_text_of_gives h
      exact ⟨text, rfl, .lengths hinside⟩

end TextRule

/-- The values that a leaf of the standard library may give, as its constraints say: all booleans,
null, the integers of a range, the numbers drawn from a range, and the texts that a rule writes. -/
inductive LeafValue (engine : Pattern.Engine) (c : Constraints) : TypeName → Json → Prop where
  | boolean (value : Bool) : LeafValue engine c .boolean (.bool value)
  | null : LeafValue engine c .null .null
  | integer {range : IntegerRange} {n : Int} (built : IntegerRange.ofConstraints c = .ok range)
      (inside : range.contains n = true) : LeafValue engine c .integer (.int n)
  | number {range : NumberRange} (built : NumberRange.ofConstraints c = .ok range)
      (source : Source) : LeafValue engine c .number (.float (range.draw source).1)
  | text {rule : TextRule} {text : String} (built : TextRule.ofConstraints engine c = .ok rule)
      (writes : rule.Writes text.toList) : LeafValue engine c .string (.str text)

section Builds

variable {engine : Pattern.Engine} {c : Constraints} {type : TypeName} {leaf : Leaf}

theorem exists_textRule (h : BuildsLeaf (.standard engine) c .string leaf) :
    ∃ rule, TextRule.ofConstraints engine c = .ok rule ∧ leaf = rule.leaf := by
  cases h with
  | pattern written built =>
      obtain ⟨pattern, hpattern, rfl⟩ := Outcome.map_eq_ok.mp built
      refine ⟨.pattern pattern, ?_, rfl⟩
      rw [TextRule.ofConstraints, written]
      exact Outcome.map_eq_ok.mpr ⟨pattern, hpattern, rfl⟩
  | format noPattern written built =>
      obtain ⟨format, hformat, rfl⟩ := Outcome.map_eq_ok.mp built
      refine ⟨.format format, ?_, rfl⟩
      rw [TextRule.ofConstraints, noPattern, written]
      exact Outcome.map_eq_ok.mpr ⟨format, hformat, rfl⟩
  | text noPattern noFormat built =>
      obtain ⟨lengths, hlengths, rfl⟩ := Outcome.map_eq_ok.mp built
      refine ⟨.lengths lengths, ?_, rfl⟩
      rw [TextRule.ofConstraints, noPattern, noFormat]
      exact Outcome.map_eq_ok.mpr ⟨lengths, hlengths, rfl⟩

theorem leafValue_of_gives (h : BuildsLeaf (.standard engine) c type leaf) {value : Json}
    (hgives : leaf.Gives value) : LeafValue engine c type value := by
  have htext (hstring : BuildsLeaf (.standard engine) c .string leaf) :
      LeafValue engine c .string value := by
    obtain ⟨rule, hrule, rfl⟩ := exists_textRule hstring
    obtain ⟨text, rfl, hwrites⟩ := TextRule.exists_text_of_gives hgives
    exact .text hrule hwrites
  cases h with
  | boolean built =>
      cases built
      obtain ⟨s, rfl⟩ := Leaf.gives_lift_iff.mp hgives
      exact .boolean _
  | null built =>
      cases built
      obtain ⟨s, t, hnull⟩ := hgives
      obtain ⟨rfl, -⟩ := Run.pure_eq_ok.mp hnull
      exact .null
  | integer built =>
      obtain ⟨range, hrange, rfl⟩ := Outcome.map_eq_ok.mp built
      obtain ⟨s, rfl⟩ := Leaf.gives_lift_iff.mp hgives
      exact .integer hrange
        (IntegerRange.contains_draw (IntegerRange.drawable_of_ofConstraints hrange) s)
  | number built =>
      obtain ⟨range, hrange, rfl⟩ := Outcome.map_eq_ok.mp built
      obtain ⟨s, rfl⟩ := Leaf.gives_lift_iff.mp hgives
      exact .number hrange s
  | pattern written built => exact htext (.pattern written built)
  | format noPattern written built => exact htext (.format noPattern written built)
  | text noPattern noFormat built => exact htext (.text noPattern noFormat built)

end Builds

namespace Sample

def standardCatalog : Catalog :=
  ⟨[], .standard⟩

/-- Texts of a length beyond all buffers. -/
def boundlessText : Json :=
  .obj [("type", .str "string"), ("minLength", .int 0x8000000000000000)]

def boundlessLengths : Lengths :=
  ⟨0x8000000000000000, 0x8000000000000000, Nat.le_refl _⟩

theorem compile_boundlessText {engine : Pattern.Engine} {name : String} :
    Scope.compile ⟨name, .standard engine⟩ boundlessText =
      .ok (.leaf boundlessLengths.textLeaf) := by
  rw [Scope.compile_of_classify (show classify boundlessText = .ok (.single .string) from rfl),
    Scope.compileKind, Scope.compileType]
  rfl

theorem not_drafts_boundlessText {catalog : Catalog} {depth : Nat} {draft : Draft} :
    ¬ (Generator.leaf boundlessLengths.textLeaf).Drafts catalog depth draft := by
  intro hdrafts
  obtain ⟨lower, rfl⟩ := Generator.exists_depth_of_drafts hdrafts
  obtain ⟨value, hgives, -⟩ := Generator.drafts_leaf hdrafts
  exact absurd (Lengths.min_le_room_of_gives hgives) (by decide)

end Sample

end Specimen
