import Specimen.Proofs.Finding
import Specimen.Proofs.FormatLengths
import Specimen.Proofs.LeafValues
import Specimen.Proofs.NumberDraws

/-!
# Narrower constraints

Some constraints are narrower than others if the range, the numbers or the texts that they leave lie
inside what the others leave, the ends that are filled in for missing keywords included. What a leaf
with the narrower constraints gives is permitted by the others.
-/

namespace Specimen

/-! ### Texts that a pattern writes -/

namespace Pattern.Tree

/-- Conditions on places write nothing and take no words of the source. -/
theorem emitAll_look_append (looks : List Look) (parts : List Tree) :
    emitAll (looks.map .look ++ parts) = emitAll parts := by
  induction looks with
  | nil => rfl
  | cons look rest ih => exact ih

theorem emitAll_append_look (parts : List Tree) (looks : List Look) (s : Source) :
    (emitAll (parts ++ looks.map .look) s).1 = (emitAll parts s).1 := by
  induction parts generalizing s with
  | nil =>
      have hnone := emitAll_look_append looks []
      rw [List.append_nil] at hnone
      exact congrArg (fun draw => (draw s).1) hnone
  | cons part rest ih => exact congrArg ((part.emit s).1 ++ ·) (ih (part.emit s).2)

/-- The text drawn from a tree is one of those between the conditions. -/
theorem Frames.gives {tree body : Tree} (h : tree.Frames body) (hbody : body.Drawable) (s : Source) :
    body.Gives (tree.emit s).1 := by
  cases h with
  | bare => exact hbody.gives s
  | mark => exact .empty
  | anchored parts =>
      have hgives := hbody.gives s
      change Gives _ (emitAll _ s).1 at hgives
      change Gives _ (emitAll _ s).1
      rwa [emitAll_look_append, emitAll_append_look]

mutual

/-- The tree with all conditions on places left out. -/
def bare : Tree → Tree
  | .look _ => .empty
  | .repetition min max greedy body => .repetition min max greedy (bare body)
  | .capture index body => .capture index (bare body)
  | .concat parts => .concat (bareAll parts)
  | .alternation branches => .alternation (bareAll branches)
  | tree => tree
termination_by structural tree => tree

def bareAll : List Tree → List Tree
  | [] => []
  | tree :: rest => bare tree :: bareAll rest
termination_by structural trees => trees

end

theorem length_bareAll (trees : List Tree) : (bareAll trees).length = trees.length := by
  induction trees with
  | nil => rfl
  | cons tree rest ih => exact congrArg (· + 1) ih

mutual

theorem emit_bare (tree : Tree) : tree.bare.emit = tree.emit := by
  cases tree with
  | empty | literal | characters | bytes | look => rfl
  | repetition min max greedy body => rw [bare, emit, emit, emit_bare body]
  | capture index body => exact emit_bare body
  | concat parts => exact emitAll_bare parts
  | alternation branches =>
      rw [bare, emit, emit, length_bareAll]
      exact congrArg _ (funext (emitAt_bare branches))

theorem emitAll_bare (trees : List Tree) : emitAll (bareAll trees) = emitAll trees := by
  cases trees with
  | nil => rfl
  | cons tree rest => rw [bareAll, emitAll, emitAll, emit_bare tree, emitAll_bare rest]

theorem emitAt_bare (trees : List Tree) (place : Nat) :
    emitAt (bareAll trees) place = emitAt trees place := by
  cases trees with
  | nil => rfl
  | cons tree rest =>
      cases place with
      | zero => exact emit_bare tree
      | succ place => exact emitAt_bare rest place

end

end Pattern.Tree

/-! ### Numbers -/

namespace NumberRange

open Double

/-- A range inside a wider one: where two ends are the same, the narrower range leaves out the end if
the wider one does. -/
structure Inside (narrow wide : NumberRange) : Prop where
  low : wide.low.value ≤ narrow.low.value
  high : narrow.high.value ≤ wide.high.value
  lowExclusive : wide.low.value = narrow.low.value → wide.lowExclusive = true →
    narrow.lowExclusive = true
  highExclusive : wide.high.value = narrow.high.value → wide.highExclusive = true →
    narrow.highExclusive = true

variable {narrow wide : NumberRange} {x : Double}

theorem Inside.contains (h : narrow.Inside wide) (hnarrow : narrow.Drawable) (hwide : wide.Drawable)
    (hx : x.isFinite = true) (hinside : narrow.contains x = true) : wide.contains x = true := by
  have hlow := value_le_iff_rank.mp h.low
  have hhigh := value_le_iff_rank.mp h.high
  rw [contains_iff_rank hnarrow hx] at hinside
  rw [contains_iff_rank hwide hx]
  obtain ⟨⟨habove, hbelow⟩, hlower, hupper⟩ := hinside
  refine ⟨⟨by omega, by omega⟩, fun hexclusive => ?_, fun hexclusive => ?_⟩
  · rcases hlow.eq_or_lt with hsame | hlt
    · have hpast := hlower (h.lowExclusive (value_eq_iff_rank.mpr hsame) hexclusive)
      omega
    · omega
  · rcases hhigh.eq_or_lt with hsame | hlt
    · have hpast := hupper (h.highExclusive (value_eq_iff_rank.mpr hsame.symm) hexclusive)
      omega
    · omega

/-- A range with two numbers contains those between them. -/
theorem contains_of_between {low high : Double} (hwide : wide.Drawable) (hlow : low.isFinite = true)
    (hhigh : high.isFinite = true) (hcontainsLow : wide.contains low = true)
    (hcontainsHigh : wide.contains high = true) (hx : low.rank ≤ x.rank ∧ x.rank ≤ high.rank) :
    wide.contains x = true := by
  have hfinite : x.isFinite = true := isFinite_of_rank_mem hlow hhigh hx.1 hx.2
  rw [contains_iff_rank hwide hlow] at hcontainsLow
  rw [contains_iff_rank hwide hhigh] at hcontainsHigh
  rw [contains_iff_rank hwide hfinite]
  obtain ⟨⟨habove, -⟩, hlower, -⟩ := hcontainsLow
  obtain ⟨⟨-, hbelow⟩, -, hupper⟩ := hcontainsHigh
  exact ⟨⟨by omega, by omega⟩, fun h => by have := hlower h; omega, fun h => by have := hupper h; omega⟩

/-- The numbers that are drawn from a range are in a wider one: they are in the range itself, or the
wider one has the ends too. -/
inductive Narrows (narrow wide : NumberRange) : Prop where
  | inside (inside : narrow.Inside wide) (room : narrow.HasRoom)
  | ends (low : wide.contains narrow.low = true) (high : wide.contains narrow.high = true)

theorem Narrows.contains_draw (h : narrow.Narrows wide) (hnarrow : narrow.Drawable)
    (hwide : wide.Drawable) (s : Source) : wide.contains (narrow.draw s).1 = true := by
  have hmem := rank_draw_mem hnarrow s
  cases h with
  | inside inside room =>
      have hfinite := isFinite_of_rank_mem hnarrow.low hnarrow.high hmem.1 hmem.2
      exact inside.contains hnarrow hwide hfinite ((contains_draw_iff hnarrow s).mpr room)
  | ends low high => exact contains_of_between hwide hnarrow.low hnarrow.high low high hmem

end NumberRange

/-! ### Texts -/

namespace TextRule

/-- A rule admits the texts that its pattern occurs in, that have its format, or that are of its
lengths. -/
def Admits (rule : TextRule) (text : String) : Prop :=
  match rule with
  | .pattern p => p.occursIn text = true
  | .format f => f.accepts text.toList = true
  | .lengths l => l.contains text.toList.length = true

/-- A rule is narrower than another one: it is the same, or its texts are among those that the other
one admits. A pattern is as narrow as itself if no conditions on places stand inside it. -/
inductive Narrows : TextRule → TextRule → Prop where
  | lengths {narrow wide : Lengths} (inside : narrow.Inside wide) :
      Narrows (.lengths narrow) (.lengths wide)
  | format (f : Format) : Narrows (.format f) (.format f)
  | formatLengths {f : Format} {wide : Lengths} (inside : f.lengths.Inside wide) :
      Narrows (.format f) (.lengths wide)
  | pattern {p : Pattern} {body : Pattern.Tree} (frames : p.tree.Frames body)
      (drawable : body.Drawable) : Narrows (.pattern p) (.pattern p)
  | language {p : Pattern} {wide : TextRule} (drawable : p.tree.bare.Drawable)
      (each : ∀ text : String, p.tree.bare.Gives text.toList → wide.Admits text) :
      Narrows (.pattern p) wide

variable {engine : Pattern.Engine} {c : Constraints} {narrow wide : TextRule} {text : String}

theorem exists_source {p : Pattern} (h : ofConstraints engine c = .ok (.pattern p)) :
    ∃ source, engine.read source = .ok p := by
  unfold ofConstraints at h
  cases hpattern : c.pattern with
  | some source =>
      rw [hpattern] at h
      obtain ⟨found, hfound, hsame⟩ := Outcome.map_eq_ok.mp h
      cases hsame
      exact ⟨source, hfound⟩
  | none =>
      rw [hpattern] at h
      cases hformat : c.format with
      | some name =>
          rw [hformat] at h
          obtain ⟨_, _, hsame⟩ := Outcome.map_eq_ok.mp h
          cases hsame
      | none =>
          rw [hformat] at h
          obtain ⟨_, _, hsame⟩ := Outcome.map_eq_ok.mp h
          cases hsame

theorem Narrows.admits (h : narrow.Narrows wide) (hfinds : engine.Finds)
    (hbuilt : ofConstraints engine c = .ok narrow) (hwrites : narrow.Writes text.toList) :
    wide.Admits text := by
  cases h with
  | lengths inside =>
      cases hwrites with
      | lengths contained => exact inside.contains contained
  | format f =>
      generalize hcs : text.toList = cs at hwrites
      cases hwrites with
      | format _ s =>
          change f.accepts text.toList = true
          rw [hcs]
          exact f.accepts_draw s
  | formatLengths inside =>
      generalize hcs : text.toList = cs at hwrites
      cases hwrites with
      | format _ s =>
          change Lengths.contains _ text.toList.length = true
          rw [hcs]
          exact inside.contains (Format.contains_lengths _ s)
  | pattern frames drawable =>
      obtain ⟨source, hread⟩ := exists_source hbuilt
      generalize hcs : text.toList = cs at hwrites
      cases hwrites with
      | pattern _ s => exact hfinds hread frames drawable (hcs ▸ frames.gives drawable s)
  | @language p _ drawable each =>
      generalize hcs : text.toList = cs at hwrites
      cases hwrites with
      | pattern _ s =>
          have hgives := drawable.gives s
          rw [Pattern.Tree.emit_bare] at hgives
          exact each text (hcs ▸ hgives)

end TextRule

/-! ### Leaves -/

/-- The constraints of one type are narrower than those of another type: the same type, or integers
in the place of numbers. -/
inductive Narrows (engine : Pattern.Engine) (c c' : Constraints) : TypeName → TypeName → Prop where
  | boolean : Narrows engine c c' .boolean .boolean
  | null : Narrows engine c c' .null .null
  | integer {narrow wide : IntegerRange} (built : IntegerRange.ofConstraints c = .ok narrow)
      (built' : IntegerRange.ofConstraints c' = .ok wide) (inside : narrow.Inside wide) :
      Narrows engine c c' .integer .integer
  | number {narrow wide : NumberRange} (built : NumberRange.ofConstraints c = .ok narrow)
      (built' : NumberRange.ofConstraints c' = .ok wide) (narrows : narrow.Narrows wide) :
      Narrows engine c c' .number .number
  | whole {narrow : IntegerRange} {wide : NumberRange}
      (built : IntegerRange.ofConstraints c = .ok narrow)
      (built' : NumberRange.ofConstraints c' = .ok wide)
      (low : wide.contains (Double.ofInt narrow.min) = true)
      (high : wide.contains (Double.ofInt narrow.max) = true) :
      Narrows engine c c' .integer .number
  | text {narrow wide : TextRule} (built : TextRule.ofConstraints engine c = .ok narrow)
      (built' : TextRule.ofConstraints engine c' = .ok wide) (narrows : narrow.Narrows wide) :
      Narrows engine c c' .string .string

theorem Narrows.plain {engine : Pattern.Engine} {c c' : Constraints} {type type' : TypeName}
    (h : Narrows engine c c' type type') : type ≠ .object ∧ type ≠ .array := by
  cases h <;> decide

/-- The values that constraints permit as ones of a type. -/
inductive Permits (engine : Pattern.Engine) (c : Constraints) : TypeName → Json → Prop where
  | boolean (value : Bool) : Permits engine c .boolean (.bool value)
  | null : Permits engine c .null .null
  | integer {range : IntegerRange} {value : Json} {n : Int}
      (built : IntegerRange.ofConstraints c = .ok range)
      (stands : IntegerRange.integer? value = some n) (inside : range.contains n = true) :
      Permits engine c .integer value
  | number {range : NumberRange} {value : Json} {x : Double}
      (built : NumberRange.ofConstraints c = .ok range) (stands : value.double? = some x)
      (inside : range.contains x = true) : Permits engine c .number value
  | text {rule : TextRule} {text : String} (built : TextRule.ofConstraints engine c = .ok rule)
      (admits : rule.Admits text) : Permits engine c .string (.str text)

section Leaves

variable {engine : Pattern.Engine} {c c' : Constraints} {type type' : TypeName} {value : Json}

theorem IntegerRange.integer?_of_contains {range : IntegerRange} {n : Int} (h : range.Drawable)
    (hn : range.contains n = true) : integer? (.int n) = some n := by
  have hlow := h.low
  have hhigh := h.high
  have hfits : Double.minInt64 ≤ n ∧ n ≤ Double.maxInt64 := by
    simp only [contains, Bool.and_eq_true, decide_eq_true_eq] at hn
    omega
  simp [integer?, Json.int64?, hfits]

theorem Double.isFinite_ofInt_of_mem {n : Int} (hlow : minInt64 ≤ n) (hhigh : n ≤ maxInt64) :
    (ofInt n).isFinite = true := by
  unfold minInt64 at hlow
  unfold maxInt64 at hhigh
  exact (denotes_nearest (n := n) (by omega)).finite

/-- What a leaf gives is permitted by the constraints that those of the leaf are narrower than. -/
theorem Narrows.permits (h : Narrows engine c c' type type') (hfinds : engine.Finds)
    (hvalue : LeafValue engine c type value) : Permits engine c' type' value := by
  cases h with
  | boolean =>
      cases hvalue with
      | boolean found => exact .boolean found
  | null =>
      cases hvalue with
      | null => exact .null
  | integer built built' inside =>
      cases hvalue with
      | integer found contained =>
          obtain rfl := Except.ok.inj (built.symm.trans found)
          have hcontains := inside.contains contained
          have hdrawable := IntegerRange.drawable_of_ofConstraints built'
          exact .integer built' (IntegerRange.integer?_of_contains hdrawable hcontains) hcontains
  | number built built' narrows =>
      cases hvalue with
      | number found source =>
          obtain rfl := Except.ok.inj (built.symm.trans found)
          have hnarrow := (NumberRange.ofConstraints_eq_ok_iff.mp built).1
          have hwide := (NumberRange.ofConstraints_eq_ok_iff.mp built').1
          exact .number built' rfl (narrows.contains_draw hnarrow hwide source)
  | @whole narrow wide built built' low high =>
      cases hvalue with
      | @integer _ n found contained =>
          obtain rfl := Except.ok.inj (built.symm.trans found)
          have hnarrow := IntegerRange.drawable_of_ofConstraints built
          have hwide := (NumberRange.ofConstraints_eq_ok_iff.mp built').1
          simp only [IntegerRange.contains, Bool.and_eq_true, decide_eq_true_eq] at contained
          have hmem := And.intro (Double.rank_ofInt_mono contained.1.1)
            (Double.rank_ofInt_mono contained.1.2)
          have hleast := Double.isFinite_ofInt_of_mem hnarrow.low
            (hnarrow.ordered.trans hnarrow.high)
          have hgreatest := Double.isFinite_ofInt_of_mem (hnarrow.low.trans hnarrow.ordered)
            hnarrow.high
          exact .number built' rfl
            (NumberRange.contains_of_between hwide hleast hgreatest low high hmem)
  | text built built' narrows =>
      cases hvalue with
      | text found writes =>
          obtain rfl := Except.ok.inj (built.symm.trans found)
          exact .text built' (narrows.admits hfinds built writes)

/-- A leaf of the standard library does not reject what its constraints permit. -/
theorem Permits.validate_ne {leaf : Leaf} (h : Permits engine c type value)
    (hbuilds : BuildsLeaf (.standard engine) c type leaf) : leaf.validate value ≠ some false := by
  cases h with
  | boolean found =>
      cases hbuilds with
      | boolean built =>
          cases built
          simp [Leaf.boolean]
  | null =>
      cases hbuilds with
      | null built =>
          cases built
          simp [Leaf.null, Json.isNull]
  | integer found stands inside =>
      cases hbuilds with
      | integer built =>
          obtain ⟨range, hrange, rfl⟩ := Outcome.map_eq_ok.mp built
          obtain rfl := Except.ok.inj (found.symm.trans hrange)
          simp [IntegerRange.leaf, stands, inside]
  | number found stands inside =>
      cases hbuilds with
      | number built =>
          obtain ⟨range, hrange, rfl⟩ := Outcome.map_eq_ok.mp built
          obtain rfl := Except.ok.inj (found.symm.trans hrange)
          simp [NumberRange.leaf, stands, inside]
  | @text rule text found admits =>
      obtain ⟨built, hbuilt, rfl⟩ := exists_textRule hbuilds
      obtain rfl := Except.ok.inj (found.symm.trans hbuilt)
      cases rule with
      | pattern p => simpa [TextRule.Admits, TextRule.leaf, Pattern.leaf] using admits
      | format f => simpa [TextRule.Admits, TextRule.leaf, Format.leaf] using admits
      | lengths l => simpa [TextRule.Admits, TextRule.leaf, Lengths.textLeaf] using admits

end Leaves

end Specimen
