import Specimen.Proofs.Operation

/-!
# Overrides that a run calls

A run changes overrides only by calling them, one after the other. What a call keeps of them is
therefore kept by every run, also by one that fails on the way. Two settings in which drafts come
out the same and relations find the same stores cannot be told apart by a run.
-/

namespace Specimen

/-- Two settings in which drafts are generated and resolved alike, and in which the relations among
overrides of a kind find the same stores. -/
structure Setting.Alike (P : Overrides → Prop) (setting other : Setting) : Prop where
  library : setting.catalog.library = other.catalog.library
  generate : ∀ (generator : Generator) (depth : Nat),
    generator.generate setting.catalog depth = generator.generate other.catalog depth
  resolve : ∀ (draft : Draft) (depth : Nat),
    draft.resolve setting.catalog depth = draft.resolve other.catalog depth
  found : ∀ {overrides : Overrides} {path : Path} {relation : Relation}, P overrides →
    overrides.get? path = some (.relation relation) →
      setting.stores relation.fixture = other.stores relation.fixture

theorem Setting.alike_self (P : Overrides → Prop) (setting : Setting) :
    setting.Alike P setting where
  library := rfl
  generate _ _ := rfl
  resolve _ _ := rfl
  found _ _ := rfl

section Calls

variable {setting other : Setting} {depth : Nat} {path : Path} {P : Overrides → Prop}

/-- A property of overrides that calling any of them keeps. -/
def Overrides.KeptByCalls (setting : Setting) (P : Overrides → Prop) : Prop :=
  ∀ {overrides : Overrides} {path : Path} {entry : Override}, P overrides →
    overrides.get? path = some entry → P (overrides.set path (entry.after setting 1))

/-- Two materializations do the same with all overrides of a kind, which stay of that kind. -/
abbrev Materialization.Same {α : Type} (P : Overrides → Prop) (x y : Materialization α) : Prop :=
  Run.Same (fun progress => P progress.overrides) x y

open Materialization (Same)

theorem same_ofGeneration {α : Type} (generation : Generation α) :
    Same P (Materialization.ofGeneration generation) (Materialization.ofGeneration generation) := by
  intro progress h
  rw [Materialization.ofGeneration_apply]
  exact ⟨rfl, h⟩

theorem Override.produce_eq {overrides : Overrides} {entry : Override}
    (halike : setting.Alike P other) (h : P overrides) (hentry : overrides.get? path = some entry) :
    entry.produce setting depth path = entry.produce other depth path := by
  cases entry with
  | generator g => rw [produce, produce, halike.generate]
  | function answers calls => rfl
  | value v => rfl
  | relation r =>
      have hfound := halike.found h hentry
      rw [produce, produce, Relation.pick, Relation.pick, hfound]

theorem same_overridden? (halike : setting.Alike P other)
    (hcall : Overrides.KeptByCalls setting P) :
    Same P (overridden? setting depth path) (overridden? other depth path) := by
  intro progress h
  have hget : (get : Materialization Progress) progress = (.ok progress, progress) := rfl
  rw [overridden?, overridden?, Run.bind_apply, Run.bind_apply, hget]
  dsimp only
  cases hentry : progress.overrides.get? path with
  | none => exact ⟨rfl, h⟩
  | some entry =>
      have hcalled := hcall h hentry
      dsimp only
      rw [Override.produce_eq halike h hentry]
      refine ⟨rfl, ?_⟩
      rw [← Override.produce_eq halike h hentry, Run.bind_apply]
      cases entry with
      | value v => exact h
      | function answers calls => exact hcalled
      | relation r => exact hcalled
      | generator g =>
          have hkept := (same_ofGeneration (P := P)
            (g.generate setting.catalog depth)).keeps progress h
          rw [Override.produce]
          rcases hrun : Materialization.ofGeneration (g.generate setting.catalog depth) progress with
            ⟨_ | draft, after⟩
          · rw [hrun] at hkept
            exact hkept
          · rw [hrun] at hkept
            exact hkept

mutual

theorem same_substitute {visit visit' : Path → Materialization (Option Json)}
    (hvisit : ∀ path, Same P (visit path) (visit' path)) (path : Path) (value : Json) :
    Same P (substitute visit path value) (substitute visit' path value) := by
  match value with
  | .obj members =>
      exact Run.same_bind (same_substituteMembers hvisit path members) fun _ => Run.same_pure _
  | .null | .bool _ | .int _ | .float _ | .str _ | .arr _ => exact Run.same_pure _
termination_by structural value

theorem same_substituteMembers {visit visit' : Path → Materialization (Option Json)}
    (hvisit : ∀ path, Same P (visit path) (visit' path)) (path : Path)
    (members : List (String × Json)) :
    Same P (substituteMembers visit path members) (substituteMembers visit' path members) := by
  match members with
  | [] => exact Run.same_pure []
  | (name, value) :: rest =>
      apply Run.same_bind (hvisit _)
      intro replaced
      have hrest (first : Json) : Same P
          (do return (name, first) :: (← substituteMembers visit path rest))
          (do return (name, first) :: (← substituteMembers visit' path rest)) :=
        Run.same_bind (same_substituteMembers hvisit path rest) fun _ => Run.same_pure _
      cases replaced with
      | none => exact Run.same_bind (same_substitute hvisit (path ++ [name]) value) hrest
      | some replaced => exact Run.same_bind (Run.same_pure replaced) hrest
termination_by structural members

end

theorem same_flatten (halike : setting.Alike P other) (hcall : Overrides.KeptByCalls setting P)
    (depth : Nat) : ∀ path draft,
      Same P (flatten setting depth path draft) (flatten other depth path draft) := by
  induction depth with
  | zero =>
      intro path draft
      exact Run.same_throw _
  | succ depth ih =>
      intro path draft
      cases draft with
      | items drafts =>
          rw [flatten_items, flatten_items, halike.resolve]
          exact same_ofGeneration _
      | value v =>
          apply same_substitute
          intro path
          apply Run.same_bind (same_overridden? halike hcall)
          intro found
          cases found with
          | none => exact Run.same_pure none
          | some draft => exact Run.same_bind (ih path draft) fun _ => Run.same_pure _
      | fields fields =>
          rw [flatten_fields, flatten_fields]
          refine Run.same_bind (Run.same_mapM ?_ fields) fun _ => Run.same_pure _
          intro field
          apply Run.same_bind (same_overridden? halike hcall)
          intro found
          have hshown (draft : Draft) : Same P
              (do return (field.1, ← flatten setting depth (path ++ [field.1]) draft))
              (do return (field.1, ← flatten other depth (path ++ [field.1]) draft)) :=
            Run.same_bind (ih _ draft) fun _ => Run.same_pure _
          cases found with
          | none =>
              dsimp only
              rw [halike.generate]
              exact Run.same_bind (same_ofGeneration _) hshown
          | some draft => exact Run.same_bind (Run.same_pure draft) hshown

/-- Settings that are alike materialize the same value from the same overrides, or fail alike. What
calls keep of the overrides holds afterwards either way. -/
theorem same_materialize (halike : setting.Alike P other)
    (hcall : Overrides.KeptByCalls setting P) (schema : Json) (generator : Generator) :
    Same P (materialize setting depth schema generator)
      (materialize other depth schema generator) := by
  rw [materialize, materialize, halike.generate]
  apply Run.same_bind (same_ofGeneration _)
  intro draft
  dsimp only
  rw [halike.resolve]
  have hplain := same_ofGeneration (P := P) (draft.resolve other.catalog depth)
  cases RootShape.ofSchema schema with
  | object => exact same_flatten halike hcall depth [] draft
  | other => exact hplain
  | array =>
      cases draft with
      | fields fields => exact hplain
      | items drafts =>
          exact Run.same_bind (Run.same_mapM (same_flatten halike hcall _ []) drafts) fun _ =>
            Run.same_pure _
      | value v =>
          cases v with
          | arr values =>
              exact Run.same_bind (Run.same_mapM (fun v => same_flatten halike hcall _ [] _) values)
                fun _ => Run.same_pure _
          | null | bool | int | float | str | obj => exact hplain

theorem Relation.fixture_pick (relation : Relation) (stores : Stores) :
    (relation.pick stores).2.fixture = relation.fixture := by
  rw [pick]
  split
  · rfl
  · rfl

theorem Relation.fixture_picks (relation : Relation) (stores : Stores) (count : Nat) :
    (relation.picks stores count).2.fixture = relation.fixture := by
  induction count generalizing relation with
  | zero => rfl
  | succ count ih => exact (ih (relation.pick stores).2).trans (relation.fixture_pick stores)

theorem Relation.length_picks (relation : Relation) (stores : Stores) (count : Nat) :
    (relation.picks stores count).1.length = count := by
  induction count generalizing relation with
  | zero => rfl
  | succ count ih => exact congrArg Nat.succ (ih (relation.pick stores).2)

theorem Overrides.keptByCalls_from (setting : Setting) (origin : Nat → Prop) :
    KeptByCalls setting fun overrides => overrides.From origin := by
  intro overrides path entry h hentry other relation hrelation
  by_cases heq : other = path
  · subst heq
    rw [get?_set_self] at hrelation
    cases entry with
    | generator | function | value => cases hrelation
    | relation old =>
        cases hrelation
        rw [Relation.fixture_picks]
        exact h _ _ hentry
  · rw [get?_set_of_ne heq] at hrelation
    exact h _ _ hrelation

theorem Fixture.overrides_relate (fixture : Fixture) (number : Nat) :
    (fixture.relate number).2.overrides = fixture.overrides := by
  rw [relate]
  split
  · rfl
  · rfl

namespace Fixture

variable {fixture : Fixture}

theorem generate_same (halike : setting.Alike P other) (hcall : Overrides.KeptByCalls setting P)
    (h : P fixture.overrides) : fixture.generate setting depth = fixture.generate other depth ∧
      P (fixture.generate setting depth).2.overrides := by
  obtain ⟨heq, hkept⟩ := same_materialize halike hcall fixture.schema fixture.generator
    ⟨fixture.source, fixture.overrides⟩ h
  exact ⟨by rw [generate, generate, heq], hkept⟩

theorem generateMany_same (halike : setting.Alike P other)
    (hcall : Overrides.KeptByCalls setting P) (count : Nat) (h : P fixture.overrides) :
    fixture.generateMany setting depth count = fixture.generateMany other depth count := by
  induction count generalizing fixture with
  | zero => rfl
  | succ count ih =>
      obtain ⟨heq, hkept⟩ := generate_same halike hcall h
      rw [generateMany, generateMany, ← heq]
      rcases hgenerate : fixture.generate setting depth with ⟨_ | value, next⟩
      · rfl
      · rw [hgenerate] at hkept
        dsimp only
        rw [ih hkept]

theorem fill_same (halike : setting.Alike P other) (hcall : Overrides.KeptByCalls setting P)
    (count : Nat) (h : P fixture.overrides) :
    fixture.fill setting depth count = fixture.fill other depth count ∧
      P (fixture.fill setting depth count).2.overrides := by
  constructor
  · rw [fill, fill, generateMany_same halike hcall _ h, halike.library]
  · exact fill_induction (fun fixture => P fixture.overrides)
      (fun _ hfixture => (generate_same (setting.alike_self P) hcall hfixture).2)
      (fun _ _ hfixture => hfixture) h

end Fixture

end Calls

end Specimen
