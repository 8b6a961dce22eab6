import Specimen.Overrides

/-!
# Materializing values

A draft is turned into a value member by member. At every path with an override the override gives
what stands there, and its own members are looked up in turn. Paths do not go into arrays.
-/

namespace Specimen

/-- What a run of materializing changes: the source, and the overrides that keep count of their
calls. -/
structure Progress where
  source : Source
  overrides : Overrides

/-- What a run only reads. -/
structure Setting where
  catalog : Catalog
  stores : Stores

abbrev Materialization := ExceptT Halt (StateM Progress)

namespace Materialization

/-- Runs a generation on the source. -/
def ofGeneration {α : Type} (generation : Generation α) : Materialization α := do
  let progress ← get
  let (result, source) := generation progress.source
  set { progress with source := source }
  match result with
  | .ok value => return value
  | .error halt => throw halt

def setOverride (path : Path) (entry : Override) : Materialization Unit :=
  modify fun progress => { progress with overrides := progress.overrides.set path entry }

end Materialization

/-- What an override gives at its path. A function or a relation has one more call behind it. -/
def Override.produce (setting : Setting) (depth : Nat) (path : Path) (entry : Override) :
    Materialization Draft :=
  match entry with
  | .generator g => Materialization.ofGeneration (g.generate setting.catalog depth)
  | .function answers calls => do
    Materialization.setOverride path (.function answers (calls + 1))
    return .value (answers calls)
  | .relation r => do
    let (place, next) := r.pick setting.stores
    Materialization.setOverride path (.relation next)
    return .value ((setting.stores r.fixture).entry place)
  | .value v => return .value v

/-- What the override at a path gives, if there is one. -/
def overridden? (setting : Setting) (depth : Nat) (path : Path) :
    Materialization (Option Draft) := do
  match (← get).overrides.get? path with
  | some entry => return some (← entry.produce setting depth path)
  | none => return none

mutual

/-- Walks a value at a path. `visit` gives what replaces the value at a path below it, if anything
does. -/
def substitute (visit : Path → Materialization (Option Json)) (path : Path) (value : Json) :
    Materialization Json :=
  match value with
  | .obj members => do return .obj (← substituteMembers visit path members)
  | value => return value
termination_by structural value

def substituteMembers (visit : Path → Materialization (Option Json)) (path : Path)
    (members : List (String × Json)) : Materialization (List (String × Json)) :=
  match members with
  | [] => return []
  | (name, value) :: rest => do
    let value ← match ← visit (path ++ [name]) with
      | some replaced => pure replaced
      | none => substitute visit (path ++ [name]) value
    return (name, value) :: (← substituteMembers visit path rest)
termination_by structural members

end

/-- The value of a draft at a path, with overrides below the path in force. -/
def flatten (setting : Setting) (depth : Nat) (path : Path) (draft : Draft) :
    Materialization Json :=
  match depth with
  | 0 => throw .tooDeep
  | depth + 1 =>
    match draft with
    | .value v =>
      substitute (fun path => do
        match ← overridden? setting depth path with
        | some draft => return some (← flatten setting depth path draft)
        | none => return none) path v
    | .fields generators => do
      let members ← generators.mapM fun (name, generator) => do
        let draft ← match ← overridden? setting depth (path ++ [name]) with
          | some draft => pure draft
          | none => Materialization.ofGeneration (generator.generate setting.catalog depth)
        return (name, ← flatten setting depth (path ++ [name]) draft)
      return .obj members
    | .items drafts =>
      Materialization.ofGeneration (Draft.resolve setting.catalog (depth + 1) (.items drafts))

/-- How the written type of a root decides what overrides apply to. -/
inductive RootShape where
  | object
  | array
  | other
  deriving DecidableEq, Repr

def RootShape.ofSchema (schema : Json) : RootShape :=
  match schema.get? Keyword.type.text with
  | none => .object
  | some .null => .object
  | some (.str name) =>
    if name = TypeName.object.text then .object
    else if name = TypeName.array.text then .array
    else .other
  | some _ => .other

/-- One value of a generator with overrides in force, shaped by the schema it was compiled from: the
paths start at an object, or at each element of an array, and any other root has none. -/
def materialize (setting : Setting) (depth : Nat) (schema : Json) (generator : Generator) :
    Materialization Json := do
  let draft ← Materialization.ofGeneration (generator.generate setting.catalog depth)
  let plain := Materialization.ofGeneration (draft.resolve setting.catalog depth)
  match RootShape.ofSchema schema with
  | .object => flatten setting depth [] draft
  | .array =>
    match draft with
    | .items drafts => do return .arr (← drafts.mapM (flatten setting (depth - 1) []))
    | .value (.arr values) => do
      return .arr (← values.mapM fun v => flatten setting depth [] (.value v))
    | _ => plain
  | .other => plain

end Specimen
