import Specimen.Proofs.Overriding
import Specimen.Proofs.Replacing

/-!
# Shadowing

An override at a path hides the subschema there: whatever that subschema is, a run gives the same
result and leaves the same state. Along the path two runs stay together, since every node on the way
is an object and its draft is its fields; at the end of the path both ask the override.
-/

namespace Specimen

section Lockstep

variable {setting : Setting} {depth : Nat} {above : Path} {before after : Progress}

theorem contains_of_steps {fields : List (String × Generator)} {members : List (String × Json)}
    (h : Run.Steps (flattenField setting depth above) fields before members after) :
    after.overrides.contains = before.overrides.contains :=
  (flattenFields_eq_ok (flattens setting before.overrides.contains depth) rfl h).2.contains_eq

theorem flattenField_of_contains {name : String} (generator other : Generator)
    (hcontains : before.overrides.contains (above ++ [name]) = true) :
    flattenField setting depth above (name, generator) before =
      flattenField setting depth above (name, other) before := by
  apply Run.bind_congr_of_ok
  intro result found hfound
  rcases overridden?_eq_ok hfound with ⟨habsent, -, -⟩ | ⟨entry, draft, -, rfl, -, -⟩
  -- the lookup cannot have found nothing, and what it found does not depend on the generator
  · obtain ⟨entry, hpresent⟩ := Overrides.contains_iff.mp hcontains
    rw [habsent] at hpresent
    cases hpresent
  · rfl

/-- An object hands its fields on, unless the depth is used up. -/
theorem ofGeneration_object_bind {α : Type} {fields others : List (String × Generator)}
    {next : Draft → Materialization α}
    (h : next (.fields fields) before = next (.fields others) before) :
    (Materialization.ofGeneration
        ((Generator.object fields).generate setting.catalog depth) >>= next) before =
      (Materialization.ofGeneration
        ((Generator.object others).generate setting.catalog depth) >>= next) before := by
  cases depth with
  | zero => rfl
  | succ depth => exact h

/-- Two objects that differ in one field are flattened alike when that field is. -/
theorem flatten_fields_congr {name : String} {path : Path} {generator other : Generator}
    (hfield : ∀ {depth : Nat} {above : Path} {before : Progress},
      before.overrides.contains (above ++ name :: path) = true →
        flattenField setting depth above (name, generator) before =
          flattenField setting depth above (name, other) before)
    {front back : List (String × Generator)}
    (hcontains : before.overrides.contains (above ++ name :: path) = true) :
    flatten setting depth above (.fields (front ++ (name, generator) :: back)) before =
      flatten setting depth above (.fields (front ++ (name, other) :: back)) before := by
  cases depth with
  | zero => rfl
  | succ depth =>
      rw [flatten_fields, flatten_fields, List.mapM_append, List.mapM_append, bind_assoc,
        bind_assoc]
      apply Run.bind_congr_of_ok
      intro members between hmembers
      rw [Run.mapM_eq_ok] at hmembers
      -- the fields in front may have called overrides, but took none away
      have hkept : between.overrides.contains (above ++ name :: path) = true := by
        rw [contains_of_steps hmembers]
        exact hcontains
      rw [List.mapM_cons, List.mapM_cons]
      apply Run.bind_congr_left
      apply Run.bind_congr_left
      exact Run.bind_congr_left (hfield hkept)

/-- Two objects that differ at a path with an override are flattened alike. -/
theorem DifferAt.flattenField_eq {path : Path} {generator other : Generator}
    (h : DifferAt path generator other) {name : String} {depth : Nat} {above : Path}
    {before : Progress} (hcontains : before.overrides.contains (above ++ name :: path) = true) :
    flattenField setting depth above (name, generator) before =
      flattenField setting depth above (name, other) before := by
  induction h generalizing name depth above before with
  | here => exact flattenField_of_contains _ _ hcontains
  | @field next path front back generator other _ ih =>
      apply Run.bind_congr_of_ok
      intro result found hfound
      rcases overridden?_eq_ok hfound with ⟨-, rfl, rfl⟩ | ⟨entry, draft, -, rfl, -, -⟩
      · have hbelow : found.overrides.contains ((above ++ [name]) ++ next :: path) = true := by
          rw [List.append_assoc, List.singleton_append]
          exact hcontains
        apply ofGeneration_object_bind
        apply Run.bind_congr_left
        exact flatten_fields_congr ih hbelow
      · rfl

end Lockstep

/-- What an override shadows does not matter: schemas that differ only below a path of object nodes
with an override at its end are materialized alike, to the same result or the same error, and leave
the same source and the same overrides. -/
theorem materialize_replaceAt {setting : Setting} {depth : Nat} {scope : Scope}
    {schema replacement : Json} {path : Path} {generator other : Generator} {progress : Progress}
    (hshape : RootShape.ofSchema schema = .object) (hpath : schema.ObjectPath path)
    (hne : path ≠ []) (hcontains : progress.overrides.contains path = true)
    (hcompile : scope.compile schema = .ok generator)
    (hother : scope.compile (schema.replaceAt path replacement) = .ok other) :
    materialize setting depth (schema.replaceAt path replacement) other progress =
      materialize setting depth schema generator progress := by
  have hsame : RootShape.ofSchema (schema.replaceAt path replacement) = .object := by
    rw [RootShape.ofSchema_replaceAt hpath hne, hshape]
  have hdiffer := Scope.differAt_of_compile hpath hcompile hother
  unfold materialize
  rw [hsame, hshape]
  cases hdiffer with
  | here => exact absurd rfl hne
  | field hbelow =>
      apply ofGeneration_object_bind
      exact (flatten_fields_congr hbelow.flattenField_eq hcontains).symm

namespace Sample

def child (schema : Json) : Json :=
  .obj [("properties", .obj [("child", schema)])]

def grandchild (schema : Json) : Json :=
  child (child schema)

def grandchildGenerator (generator : Generator) : Generator :=
  .object [("child", .object [("child", generator)])]

def selfReference : Json :=
  .obj [("$ref", .str "#")]

def brokenReference : Json :=
  .obj [("$ref", .str "#/nowhere")]

def selfGenerator : Generator :=
  .reference "sample" ⟨none, []⟩ (.obj [])

def brokenGenerator : Generator :=
  .reference "sample" ⟨none, ["nowhere"]⟩ (.obj [])

def shadow : Overrides :=
  ⟨[(["child", "child"], .value .null)]⟩

theorem compile_child {schema : Json} {generator : Generator}
    (h : scope.compile schema = .ok generator) :
    scope.compile (child schema) = .ok (.object [("child", generator)]) := by
  have hfields : scope.compileFields [("child", schema)] = .ok [("child", generator)] := by
    rw [Scope.compileFields, Scope.compileFields, h]
    rfl
  have hobject : (child schema).IsObjectNode := .inr rfl
  rw [Scope.compile_of_isObjectNode hobject]
  exact Scope.compileObject_of_fields rfl hfields

theorem compile_selfReference :
    scope.compile (grandchild selfReference) = .ok (grandchildGenerator selfGenerator) := by
  have h : scope.compile selfReference = .ok selfGenerator :=
    Scope.compile_eq_compileKind scope selfReference
  exact compile_child (compile_child h)

theorem compile_brokenReference :
    scope.compile (grandchild brokenReference) = .ok (grandchildGenerator brokenGenerator) := by
  have h : scope.compile brokenReference = .ok brokenGenerator :=
    Scope.compile_eq_compileKind scope brokenReference
  exact compile_child (compile_child h)

theorem objectPath_grandchild :
    (grandchild selfReference).ObjectPath ["child", "child"] :=
  .property (.inr rfl) rfl (.property (.inr rfl) rfl .here)

end Sample

theorem materialize_replaceAt_grandchild :
    RootShape.ofSchema (Sample.grandchild Sample.selfReference) = .object ∧
      (Sample.grandchild Sample.selfReference).ObjectPath ["child", "child"] ∧
      Sample.shadow.contains ["child", "child"] = true ∧
      Sample.scope.compile (Sample.grandchild Sample.selfReference) =
        .ok (Sample.grandchildGenerator Sample.selfGenerator) ∧
      Sample.scope.compile (Sample.grandchild Sample.brokenReference) =
        .ok (Sample.grandchildGenerator Sample.brokenGenerator) ∧
      materialize Sample.setting 3 (Sample.grandchild Sample.brokenReference)
          (Sample.grandchildGenerator Sample.brokenGenerator) ⟨.mixed [] 0, Sample.shadow⟩ =
        materialize Sample.setting 3 (Sample.grandchild Sample.selfReference)
          (Sample.grandchildGenerator Sample.selfGenerator) ⟨.mixed [] 0, Sample.shadow⟩ :=
  ⟨rfl, Sample.objectPath_grandchild, rfl, Sample.compile_selfReference,
    Sample.compile_brokenReference,
    materialize_replaceAt rfl Sample.objectPath_grandchild (by simp) rfl
      Sample.compile_selfReference Sample.compile_brokenReference⟩

end Specimen
