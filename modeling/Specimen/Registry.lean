import Specimen.Fixture

/-!
# Registries

A registry holds schemas as they were written beside the generators they compile to. Every fixture
it opens gets a source that depends on the seed, on the schema's name and on the number of fixtures
opened before.
-/

namespace Specimen

structure Registry where
  catalog : Catalog
  compiled : List (String × Generator)
  seed : Option UInt64
  storeSizes : List (String × Nat)
  opened : UInt64

namespace Registry

def empty (library : Library) : Registry :=
  ⟨Catalog.empty library, [], none, [], 0⟩

def withSeed (registry : Registry) (seed : UInt64) : Registry :=
  { registry with seed := some seed }

/-- Registers a schema under a name, in the place of any other. It is compiled before anything is
recorded. -/
def add (name : String) (schema : Json) : ExceptT Error (StateM Registry) Unit := do
  let registry ← get
  match Scope.compile ⟨name, registry.catalog.library⟩ schema with
  | .error e => throw e
  | .ok generator =>
    modify fun registry =>
      { registry with compiled := Assoc.put name generator registry.compiled }
    modify fun registry => { registry with catalog := registry.catalog.insert name schema }

def generator? (registry : Registry) (name : String) : Option Generator :=
  Assoc.get? name registry.compiled

/-- The names of the compiled schemas in order. -/
def names (registry : Registry) : List String :=
  Overrides.sorted (Assoc.keys registry.compiled)

/-- The store size configured for a name, or none at all. -/
def storeSize (registry : Registry) (name : String) : Nat :=
  (Assoc.get? name registry.storeSizes).getD 0

/-- One step of the hash of a name: a byte is mixed in and spread by an odd factor. -/
def hashStep (hash : UInt64) (byte : UInt8) : UInt64 :=
  (hash ^^^ byte.toUInt64) * 0x100000001b3

def hashName (name : String) : UInt64 :=
  name.toUTF8.toList.foldl hashStep 0xcbf29ce484222325

/-- The seed of a fixture, from the registry's seed, the schema's name and the fixture's number. -/
def mixSeed (seed : UInt64) (name : String) (number : UInt64) : UInt64 :=
  seed ^^^ (hashName name + number * 0x9E3779B97F4A7C15)

/-- The source of the next fixture; without a seed it is the given one. -/
def nextSource (registry : Registry) (unseeded : Source) (name : String) : Source :=
  match registry.seed with
  | some seed => Source.ofSeed (mixSeed seed name registry.opened)
  | none => unseeded

/-- Opens a fixture with overrides and fills its store. The fixture counts as opened even if filling
fails, but not if the name is not registered. -/
def openFixture (registry : Registry) (stores : Stores) (depth : Nat) (unseeded : Source)
    (name : String) (count : Nat) (overrides : Overrides) : Except Halt Fixture × Registry :=
  match registry.generator? name, registry.catalog.get? name with
  | some generator, some schema =>
    let source := registry.nextSource unseeded name
    let fixture : Fixture := ⟨name, generator, schema, overrides, source, Store.empty⟩
    let registry := { registry with opened := registry.opened + 1 }
    match fixture.fill ⟨registry.catalog, stores⟩ depth count with
    | (.ok (), fixture) => (.ok fixture, registry)
    | (.error halt, _) => (.error halt, registry)
  | _, _ => (.error (.error (.unregistered name)), registry)

end Registry

end Specimen
