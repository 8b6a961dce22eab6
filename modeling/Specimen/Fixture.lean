import Specimen.Materialize

/-!
# Fixtures

A fixture binds a compiled schema to overrides, a source and a store of its own. Its store only
grows, and a failing fill leaves it as it was.
-/

namespace Specimen

structure Fixture where
  name : String
  generator : Generator
  schema : Json
  overrides : Overrides
  source : Source
  store : Store

namespace Fixture

/-- One value; the store stays as it is. -/
def generate (fixture : Fixture) (setting : Setting) (depth : Nat) :
    Except Halt Json × Fixture :=
  let (result, progress) :=
    materialize setting depth fixture.schema fixture.generator ⟨fixture.source, fixture.overrides⟩
  (result, { fixture with source := progress.source, overrides := progress.overrides })

/-- Values one after the other, up to the first that fails. -/
def generateMany (fixture : Fixture) (setting : Setting) (depth : Nat) :
    Nat → Except Halt (List Json) × Fixture
  | 0 => (.ok [], fixture)
  | count + 1 =>
    match fixture.generate setting depth with
    | (.error halt, fixture) => (.error halt, fixture)
    | (.ok value, fixture) =>
      match fixture.generateMany setting depth count with
      | (.error halt, fixture) => (.error halt, fixture)
      | (.ok values, fixture) => (.ok (value :: values), fixture)

/-- Grows the store to a number of values; with so many there already nothing happens. There must
be room for all the values that are missing. -/
def fill (fixture : Fixture) (setting : Setting) (depth count : Nat) :
    Except Halt Unit × Fixture :=
  if count ≤ fixture.store.size then (.ok (), fixture)
  else if Store.room < count - fixture.store.size then
    (.error (.overflow ⟨count - fixture.store.size⟩), fixture)
  else
    match fixture.generateMany setting depth (count - fixture.store.size) with
    | (.error halt, fixture) => (.error halt, fixture)
    | (.ok values, fixture) =>
      match setting.catalog.library.index count with
      | .error e => (.error (.error (.primitive e)), fixture)
      | .ok picker => (.ok (), { fixture with store := fixture.store.extend values picker })

/-- A relation to the store of this fixture, which goes by the given number. The relation's source
comes from the fixture's. -/
def relate (fixture : Fixture) (number : Nat) : Except Error Relation × Fixture :=
  if fixture.store.entries.isEmpty then (.error (.emptyStore fixture.name), fixture)
  else
    let (seed, source) := fixture.source.next64
    (.ok ⟨fixture.name, number, Source.ofSeed seed⟩, { fixture with source := source })

def reseed (fixture : Fixture) (seed : UInt64) : Fixture :=
  { fixture with source := Source.ofSeed seed }

/-- The paths of overrides that name no property of the schema, in order. -/
def unknownPaths (fixture : Fixture) (catalog : Catalog) : List String :=
  let unknown := fixture.overrides.segments.filter fun path =>
    !catalog.hasPath fixture.name fixture.schema path
  Overrides.sorted (unknown.map Path.text)

end Fixture

end Specimen
