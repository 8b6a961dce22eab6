import Specimen.Proofs.Visits

/-!
# Overriding

Materializing visits the positions of its value in order. At each it looks up the path; what the
override there supplies is what is shown, and what no override replaces comes of the draft.
-/

namespace Specimen

theorem Materialization.ofGeneration_apply {α : Type} (generation : Generation α)
    (progress : Progress) : ofGeneration generation progress =
      ((generation progress.source).1,
        { progress with source := (generation progress.source).2 }) := by
  have hget : (get : Materialization Progress) progress = (.ok progress, progress) := rfl
  rw [ofGeneration, Run.bind_apply, hget]
  dsimp only
  rcases generation progress.source with ⟨halt | value, source⟩
  · rfl
  · rfl

theorem Materialization.ofGeneration_eq_ok {α : Type} {generation : Generation α} {value : α}
    {before after : Progress} (h : ofGeneration generation before = (.ok value, after)) :
    generation before.source = (.ok value, after.source) ∧ after.overrides = before.overrides := by
  rw [ofGeneration_apply] at h
  obtain ⟨hresult, rfl⟩ := Prod.mk.inj h
  exact ⟨Prod.ext hresult rfl, rfl⟩

section

variable {setting : Setting} {depth : Nat} {path : Path} {draft : Draft} {entry : Override}
  {before after : Progress}

theorem Override.produce_eq_ok (hentry : before.overrides.get? path = some entry)
    (h : entry.produce setting depth path before = (.ok draft, after)) :
    entry.Yields setting draft ∧
      after.overrides = before.overrides.set path (entry.after setting 1) := by
  cases entry with
  | generator g =>
      obtain ⟨hgenerate, hkeeps⟩ := Materialization.ofGeneration_eq_ok h
      refine ⟨⟨depth, _, _, hgenerate⟩, ?_⟩
      rw [hkeeps]
      exact (Overrides.set_eq_self hentry).symm
  | function answers calls =>
      cases h
      exact ⟨rfl, rfl⟩
  | relation r =>
      cases h
      exact ⟨rfl, rfl⟩
  | value v =>
      cases h
      refine ⟨rfl, ?_⟩
      exact (Overrides.set_eq_self hentry).symm

theorem overridden?_eq_ok {result : Option Draft}
    (h : overridden? setting depth path before = (.ok result, after)) :
    (before.overrides.get? path = none ∧ result = none ∧ after = before) ∨
      ∃ entry draft, before.overrides.get? path = some entry ∧ result = some draft ∧
        entry.Yields setting draft ∧
          after.overrides = before.overrides.set path (entry.after setting 1) := by
  obtain ⟨progress, between, hget, h⟩ := Run.bind_eq_ok.mp h
  cases hget
  cases hentry : before.overrides.get? path with
  | none =>
      rw [hentry] at h
      obtain ⟨rfl, rfl⟩ := Run.pure_eq_ok.mp h
      exact .inl ⟨rfl, rfl, rfl⟩
  | some entry =>
      rw [hentry] at h
      obtain ⟨draft, between, hproduce, h⟩ := Run.bind_eq_ok.mp h
      obtain ⟨rfl, rfl⟩ := Run.pure_eq_ok.mp h
      obtain ⟨hyields, hcalled⟩ := Override.produce_eq_ok hentry hproduce
      exact .inr ⟨entry, draft, rfl, rfl, hyields, hcalled⟩

end

def flattenField (setting : Setting) (depth : Nat) (path : Path) (field : String × Generator) :
    Materialization (String × Json) := do
  let draft ← match ← overridden? setting depth (path ++ [field.1]) with
    | some draft => pure draft
    | none => Materialization.ofGeneration (field.2.generate setting.catalog depth)
  return (field.1, ← flatten setting depth (path ++ [field.1]) draft)

theorem flatten_fields (setting : Setting) (depth : Nat) (path : Path)
    (fields : List (String × Generator)) :
    flatten setting (depth + 1) path (.fields fields) =
      (do return .obj (← fields.mapM (flattenField setting depth path))) :=
  rfl

theorem flatten_items (setting : Setting) (depth : Nat) (path : Path) (drafts : List Draft) :
    flatten setting (depth + 1) path (.items drafts) =
      Materialization.ofGeneration
        (Draft.resolve setting.catalog (depth + 1) (.items drafts)) :=
  rfl

section Flattening

variable (setting : Setting) (covered : Path → Bool)

/-- A visit finds nothing to replace where there is no override, and else replaces by what the
override supplies, after the positions below are visited in their turn. -/
def Replaces (visit : Path → Materialization (Option Json)) : Prop :=
  ∀ {path : Path} {result : Option Json} {before after : Progress},
    before.overrides.contains = covered → visit path before = (.ok result, after) →
      (before.overrides.get? path = none ∧ result = none ∧ after = before) ∨
        ∃ entry value, before.overrides.get? path = some entry ∧ result = some value ∧
          entry.Supplies setting covered path 0 value ∧
            Visits setting covered (before.overrides.set path (entry.after setting 1))
              (value.positions path) after.overrides

/-- Flattening to a depth shows what comes of the draft and visits the positions of what it
shows. -/
def Flattens (depth : Nat) : Prop :=
  ∀ {path : Path} {draft : Draft} {value : Json} {before after : Progress},
    before.overrides.contains = covered →
      flatten setting depth path draft before = (.ok value, after) →
        FromDraft covered setting.catalog path draft value ∧
          Visits setting covered before.overrides (value.positions path) after.overrides

variable {setting covered} {depth : Nat} {path : Path} {before after : Progress}

mutual

theorem substitute_eq_ok {visit : Path → Materialization (Option Json)}
    (hvisit : Replaces setting covered visit) {path : Path} {value shown : Json}
    {before after : Progress} (hcovered : before.overrides.contains = covered)
    (h : substitute visit path value before = (.ok shown, after)) :
    Shows covered path value shown ∧
      Visits setting covered before.overrides (shown.positions path) after.overrides := by
  match value with
  | .obj members =>
      obtain ⟨members, between, hmembers, hpure⟩ := Run.bind_eq_ok.mp h
      obtain ⟨rfl, rfl⟩ := Run.pure_eq_ok.mp hpure
      obtain ⟨hshows, hvisits⟩ := substituteMembers_eq_ok hvisit hcovered hmembers
      exact ⟨.object hshows, hvisits⟩
  | .null | .bool _ | .int _ | .float _ | .str _ | .arr _ =>
      obtain ⟨rfl, rfl⟩ := Run.pure_eq_ok.mp h
      exact ⟨.plain (by simp), .nil⟩
termination_by structural value

theorem substituteMembers_eq_ok {visit : Path → Materialization (Option Json)}
    (hvisit : Replaces setting covered visit) {path : Path} {members shown : List (String × Json)}
    {before after : Progress} (hcovered : before.overrides.contains = covered)
    (h : substituteMembers visit path members before = (.ok shown, after)) :
    ShowsMembers covered path members shown ∧
      Visits setting covered before.overrides (Json.positionsMembers path shown)
        after.overrides := by
  match members with
  | [] =>
      obtain ⟨rfl, rfl⟩ := Run.pure_eq_ok.mp h
      exact ⟨.nil, .nil⟩
  | (name, value) :: rest =>
      obtain ⟨result, found, hfound, hnext⟩ := Run.bind_eq_ok.mp h
      rcases hvisit hcovered hfound with ⟨habsent, rfl, rfl⟩ |
          ⟨entry, replaced, hpresent, rfl, hsupplies, hbelow⟩
      · obtain ⟨first, between, hfirst, hnext⟩ := Run.bind_eq_ok.mp hnext
        obtain ⟨others, final, hothers, hpure⟩ := Run.bind_eq_ok.mp hnext
        obtain ⟨rfl, rfl⟩ := Run.pure_eq_ok.mp hpure
        obtain ⟨hshows, hbelow⟩ := substitute_eq_ok hvisit hcovered hfirst
        obtain ⟨hrest, hvisits⟩ :=
          substituteMembers_eq_ok hvisit (hbelow.contains_eq.trans hcovered) hothers
        exact ⟨.kept hshows hrest, .free habsent (hbelow.append hvisits)⟩
      -- the positions below what replaced the member were visited when it was looked up
      · obtain ⟨first, between, hfirst, hnext⟩ := Run.bind_eq_ok.mp hnext
        obtain ⟨others, final, hothers, hpure⟩ := Run.bind_eq_ok.mp hnext
        obtain ⟨rfl, rfl⟩ := Run.pure_eq_ok.mp hpure
        obtain ⟨rfl, rfl⟩ := Run.pure_eq_ok.mp hfirst
        have hcovers : covered (path ++ [name]) = true := by
          rw [← hcovered]
          exact Overrides.contains_of_get? hpresent
        have hcontains : found.overrides.contains = covered := by
          rw [hbelow.contains_eq, Overrides.contains_set hpresent, hcovered]
        obtain ⟨hrest, hvisits⟩ := substituteMembers_eq_ok hvisit hcontains hothers
        exact ⟨.replaced hcovers hrest, .taken hpresent hsupplies (hbelow.append hvisits)⟩
termination_by structural members

end

theorem replaces_of_flattens (hflatten : Flattens setting covered depth) :
    Replaces setting covered fun path => do
      match ← overridden? setting depth path with
      | some draft => return some (← flatten setting depth path draft)
      | none => return none := by
  intro path result before after hcovered h
  obtain ⟨found, between, hfound, hnext⟩ := Run.bind_eq_ok.mp h
  rcases overridden?_eq_ok hfound with ⟨habsent, rfl, rfl⟩ |
      ⟨entry, draft, hpresent, rfl, hyields, hcalled⟩
  · obtain ⟨rfl, rfl⟩ := Run.pure_eq_ok.mp hnext
    exact .inl ⟨habsent, rfl, rfl⟩
  · obtain ⟨value, final, hvalue, hpure⟩ := Run.bind_eq_ok.mp hnext
    obtain ⟨rfl, rfl⟩ := Run.pure_eq_ok.mp hpure
    have hcontains : between.overrides.contains = covered := by
      rw [hcalled, Overrides.contains_set hpresent, hcovered]
    obtain ⟨hfrom, hvisits⟩ := hflatten hcontains hvalue
    refine .inr ⟨entry, value, hpresent, rfl, Override.supplies_of_yields hyields hfrom, ?_⟩
    rw [← hcalled]
    exact hvisits

theorem flattenFields_eq_ok (hflatten : Flattens setting covered depth)
    {fields : List (String × Generator)} {members : List (String × Json)}
    (hcovered : before.overrides.contains = covered)
    (h : Run.Steps (flattenField setting depth path) fields before members after) :
    FromFields covered setting.catalog path fields members ∧
      Visits setting covered before.overrides (Json.positionsMembers path members)
        after.overrides := by
  induction h with
  | nil => exact ⟨.nil, .nil⟩
  | @cons field fields member members before between after hfield _ ih =>
      obtain ⟨result, found, hfound, hnext⟩ := Run.bind_eq_ok.mp hfield
      rcases overridden?_eq_ok hfound with ⟨habsent, rfl, rfl⟩ |
          ⟨entry, draft, hpresent, rfl, hyields, hcalled⟩
      · obtain ⟨draft, drafted, hgenerate, hnext⟩ := Run.bind_eq_ok.mp hnext
        obtain ⟨value, final, hvalue, hpure⟩ := Run.bind_eq_ok.mp hnext
        obtain ⟨rfl, rfl⟩ := Run.pure_eq_ok.mp hpure
        obtain ⟨hdrafts, hkeeps⟩ := Materialization.ofGeneration_eq_ok hgenerate
        obtain ⟨hfrom, hbelow⟩ := hflatten (hkeeps ▸ hcovered) hvalue
        rw [hkeeps] at hbelow
        obtain ⟨hrest, hvisits⟩ := ih (hbelow.contains_eq.trans hcovered)
        exact ⟨.generated ⟨_, _, hdrafts⟩ hfrom hrest, .free habsent (hbelow.append hvisits)⟩
      · obtain ⟨same, drafted, hsame, hnext⟩ := Run.bind_eq_ok.mp hnext
        obtain ⟨rfl, rfl⟩ := Run.pure_eq_ok.mp hsame
        obtain ⟨value, final, hvalue, hpure⟩ := Run.bind_eq_ok.mp hnext
        obtain ⟨rfl, rfl⟩ := Run.pure_eq_ok.mp hpure
        have hcovers : covered (path ++ [field.1]) = true := by
          rw [← hcovered]
          exact Overrides.contains_of_get? hpresent
        have hcontains : found.overrides.contains = covered := by
          rw [hcalled, Overrides.contains_set hpresent, hcovered]
        obtain ⟨hfrom, hbelow⟩ := hflatten hcontains hvalue
        obtain ⟨hrest, hvisits⟩ := ih (hbelow.contains_eq.trans hcontains)
        have hsupplies := Override.supplies_of_yields hyields hfrom
        rw [hcalled] at hbelow
        exact ⟨.replaced hcovers hrest, .taken hpresent hsupplies (hbelow.append hvisits)⟩

/-- The depth goes down at each lookup; what an override supplies is flattened one depth below. -/
theorem flattens (setting : Setting) (covered : Path → Bool) (depth : Nat) :
    Flattens setting covered depth := by
  induction depth with
  | zero =>
      intro path draft value before after _ h
      exact absurd h Run.throw_ne_ok
  | succ depth ih =>
      intro path draft value before after hcovered h
      cases draft with
      | value v =>
          obtain ⟨hshows, hvisits⟩ := substitute_eq_ok (replaces_of_flattens ih) hcovered h
          exact ⟨.value hshows, hvisits⟩
      | fields fields =>
          rw [flatten_fields] at h
          obtain ⟨members, between, hmembers, hpure⟩ := Run.bind_eq_ok.mp h
          obtain ⟨rfl, rfl⟩ := Run.pure_eq_ok.mp hpure
          obtain ⟨hfrom, hvisits⟩ :=
            flattenFields_eq_ok ih hcovered (Run.mapM_eq_ok.mp hmembers)
          exact ⟨.fields hfrom, hvisits⟩
      | items drafts =>
          rw [flatten_items] at h
          obtain ⟨hresolve, hkeeps⟩ := Materialization.ofGeneration_eq_ok h
          have hresolves : (Draft.items drafts).Resolves setting.catalog (depth + 1) value :=
            ⟨_, _, hresolve⟩
          obtain ⟨values, rfl, -⟩ := Draft.resolves_items hresolves
          rw [hkeeps]
          exact ⟨.items hresolves, .nil⟩

theorem flattenElements_eq_ok {lower : Nat} {elements : List Draft} {values : List Json}
    (hcovered : before.overrides.contains = covered)
    (h : Run.Steps (flatten setting lower []) elements before values after) :
    List.Forall₂ (FromDraft covered setting.catalog []) elements values ∧
      Visits setting covered before.overrides (values.flatMap (Json.positions []))
        after.overrides := by
  induction h with
  | nil => exact ⟨.nil, .nil⟩
  | cons hfirst _ ih =>
      obtain ⟨hfrom, hbelow⟩ := flattens setting covered lower hcovered hfirst
      obtain ⟨hrest, hvisits⟩ := ih (hbelow.contains_eq.trans hcovered)
      rw [List.flatMap_cons]
      exact ⟨.cons hfrom hrest, hbelow.append hvisits⟩

end Flattening

/-! ### Roots -/

/-- The elements of a draft that is an array. -/
def Draft.elements? : Draft → Option (List Draft)
  | .items drafts => some drafts
  | .value (.arr values) => some (values.map .value)
  | _ => none

/-- A value is one of a draft that stands at a root. The elements of an array stand at roots of
their own, and what is neither object nor array is resolved as a whole. -/
inductive FromRoot (covered : Path → Bool) (catalog : Catalog) :
    RootShape → Draft → Json → Prop where
  | object {draft : Draft} {value : Json} (shows : FromDraft covered catalog [] draft value) :
      FromRoot covered catalog .object draft value
  | array {draft : Draft} {elements : List Draft} {values : List Json}
      (array : draft.elements? = some elements)
      (each : List.Forall₂ (FromDraft covered catalog []) elements values) :
      FromRoot covered catalog .array draft (.arr values)
  | notArray {draft : Draft} {value : Json} {depth : Nat} (notArray : draft.elements? = none)
      (resolves : draft.Resolves catalog depth value) :
      FromRoot covered catalog .array draft value
  | other {draft : Draft} {value : Json} {depth : Nat}
      (resolves : draft.Resolves catalog depth value) :
      FromRoot covered catalog .other draft value

section Root

variable {setting : Setting} {depth : Nat} {draft : Draft} {value : Json} {before after : Progress}

theorem precedence_of_resolve
    (h : Materialization.ofGeneration (draft.resolve setting.catalog depth) before =
      (.ok value, after)) :
    draft.Resolves setting.catalog depth value ∧
      Precedence setting before.overrides [] after.overrides := by
  obtain ⟨hresolve, hkeeps⟩ := Materialization.ofGeneration_eq_ok h
  rw [hkeeps]
  exact ⟨⟨_, _, hresolve⟩, Visits.nil.precedence⟩

/-- A draft that is no array does not resolve to one. -/
theorem positions_of_resolve (hnone : draft.elements? = none)
    (h : draft.Resolves setting.catalog depth value) : RootShape.array.positions value = [] := by
  obtain ⟨lower, rfl⟩ := Draft.exists_depth_of_resolves h
  cases draft with
  | value v =>
      rw [Draft.resolves_value h]
      cases v with
      | arr values => cases hnone
      | null | bool | int | float | str | obj => rfl
  | fields fields =>
      obtain ⟨members, rfl, -⟩ := Draft.resolves_fields h
      rfl
  | items drafts => cases hnone

theorem fromRoot_of_resolve (hnone : draft.elements? = none)
    (h : Materialization.ofGeneration (draft.resolve setting.catalog depth) before =
      (.ok value, after)) :
    FromRoot before.overrides.contains setting.catalog .array draft value ∧
      Precedence setting before.overrides (RootShape.array.positions value) after.overrides := by
  obtain ⟨hresolves, hprecedence⟩ := precedence_of_resolve h
  rw [positions_of_resolve hnone hresolves]
  exact ⟨.notArray hnone hresolves, hprecedence⟩

theorem fromRoot_of_elements {lower : Nat} {elements : List Draft}
    (helements : draft.elements? = some elements)
    (h : (do return .arr (← elements.mapM (flatten setting lower [])) : Materialization Json)
      before = (.ok value, after)) :
    FromRoot before.overrides.contains setting.catalog .array draft value ∧
      Precedence setting before.overrides (RootShape.array.positions value) after.overrides := by
  obtain ⟨values, between, hvalues, hpure⟩ := Run.bind_eq_ok.mp h
  obtain ⟨rfl, rfl⟩ := Run.pure_eq_ok.mp hpure
  obtain ⟨heach, hvisits⟩ := flattenElements_eq_ok rfl (Run.mapM_eq_ok.mp hvalues)
  exact ⟨.array helements heach, hvisits.precedence⟩

/-- Overrides take precedence. A materialized value comes of a draft wherever no override is, and at
every position that members of objects lead to from the root, or from an element of a root array,
the override of its path supplies what is there; it is called once for every such position, in the
order of the positions. -/
theorem precedence_of_materialize {schema : Json} {generator : Generator}
    (h : materialize setting depth schema generator before = (.ok value, after)) :
    ∃ draft, generator.Drafts setting.catalog depth draft ∧
      FromRoot before.overrides.contains setting.catalog (RootShape.ofSchema schema) draft value ∧
        Precedence setting before.overrides ((RootShape.ofSchema schema).positions value)
          after.overrides := by
  obtain ⟨draft, drafted, hdraft, hnext⟩ := Run.bind_eq_ok.mp h
  obtain ⟨hdrafts, hkeeps⟩ := Materialization.ofGeneration_eq_ok hdraft
  refine ⟨draft, ⟨_, _, hdrafts⟩, ?_⟩
  rw [← hkeeps]
  cases hshape : RootShape.ofSchema schema with
  | object =>
      rw [hshape] at hnext
      obtain ⟨hfrom, hvisits⟩ := flattens setting _ depth rfl hnext
      exact ⟨.object hfrom, hvisits.precedence⟩
  | other =>
      rw [hshape] at hnext
      obtain ⟨hresolves, hprecedence⟩ := precedence_of_resolve hnext
      exact ⟨.other hresolves, hprecedence⟩
  | array =>
      rw [hshape] at hnext
      cases draft with
      | items drafts => exact fromRoot_of_elements rfl hnext
      | fields fields => exact fromRoot_of_resolve rfl hnext
      | value v =>
          cases v with
          | arr values =>
              have hmap : (values.map Draft.value).mapM (flatten setting depth []) =
                  values.mapM fun v => flatten setting depth [] (.value v) := List.mapM_map
              apply fromRoot_of_elements rfl
              rw [hmap]
              exact hnext
          | null | bool | int | float | str | obj => exact fromRoot_of_resolve rfl hnext

end Root

namespace Sample

def setting : Setting :=
  ⟨catalog, fun _ => .empty⟩

/-- A constant, and functions at the path of a reference and of a member of the constant. -/
def overrides : Overrides :=
  ⟨[(["pair"], .value (.obj [("left", .null), ("right", .bool true)])),
    (["next"], .function (fun call => .int call) 0),
    (["pair", "right"], .function (fun call => .int call) 4)]⟩

def calledOverrides : Overrides :=
  ⟨[(["pair"], .value (.obj [("left", .null), ("right", .bool true)])),
    (["next"], .function (fun call => .int call) 1),
    (["pair", "right"], .function (fun call => .int call) 5)]⟩

def overridden : Json :=
  .obj [("id", .null), ("next", .int 0), ("pair", .obj [("left", .null), ("right", .int 4)])]

theorem materialize_document :
    materialize setting 4 document (.object fields) ⟨.mixed [] 0, overrides⟩ =
      (.ok overridden, ⟨.mixed [] 0, calledOverrides⟩) :=
  rfl

end Sample

theorem precedence_of_materialize_document :
    materialize Sample.setting 4 Sample.document (.object Sample.fields)
        ⟨.mixed [] 0, Sample.overrides⟩ =
      (.ok Sample.overridden, ⟨.mixed [] 0, Sample.calledOverrides⟩) ∧
      ∃ draft, (Generator.object Sample.fields).Drafts Sample.catalog 4 draft ∧
        FromRoot Sample.overrides.contains Sample.catalog (RootShape.ofSchema Sample.document)
          draft Sample.overridden ∧
        Precedence Sample.setting Sample.overrides
          ((RootShape.ofSchema Sample.document).positions Sample.overridden)
          Sample.calledOverrides :=
  ⟨Sample.materialize_document, precedence_of_materialize Sample.materialize_document⟩

end Specimen
