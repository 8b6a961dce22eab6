import Specimen.Registry

/-!
# Sessions

A session is a registry with the fixtures opened from it and the relations taken from those, both by
number. One that could not be made keeps its number and answers nothing.
-/

namespace Specimen

structure Session where
  registry : Registry
  fixtures : List (Option Fixture)
  relations : List (Option Relation)
  /-- The source of fixtures that no seed determines. -/
  unseeded : Source
  /-- How many calls may be open inside each other while a value is generated. -/
  depth : Nat

namespace Session

def start (registry : Registry) (unseeded : Source) (depth : Nat) : Session :=
  ⟨registry, [], [], unseeded, depth⟩

/-- The session without its fixtures and relations; the registry lives on. -/
def clear (session : Session) : Session :=
  { session with fixtures := [], relations := [] }

def fixture? (session : Session) (number : Nat) : Option Fixture :=
  (session.fixtures[number]?).join

def relation? (session : Session) (number : Nat) : Option Relation :=
  (session.relations[number]?).join

def stores (session : Session) : Stores := fun number =>
  match session.fixture? number with
  | some fixture => fixture.store
  | none => Store.empty

def setting (session : Session) : Setting :=
  ⟨session.registry.catalog, session.stores⟩

def setFixture (session : Session) (number : Nat) (fixture : Fixture) : Session :=
  { session with fixtures := session.fixtures.set number (some fixture) }

def setRelation (session : Session) (number : Nat) (relation : Relation) : Session :=
  { session with relations := session.relations.set number (some relation) }

def add (session : Session) (name : String) (schema : Json) : Except Error Unit × Session :=
  let (result, registry) := Registry.add name schema session.registry
  (result, { session with registry := registry })

/-- The session after a fixture that could not even be asked for; its number is taken. -/
def skipFixture (session : Session) : Session :=
  { session with fixtures := session.fixtures ++ [none] }

/-- Opens a fixture, which takes the next number whether it succeeds or not. -/
def openFixture (session : Session) (name : String) (count : Nat) (overrides : Overrides) :
    Except Halt Nat × Session :=
  let number := session.fixtures.length
  let (result, registry) := session.registry.openFixture session.stores session.depth
    session.unseeded name count overrides
  let session := { session with registry := registry }
  match result with
  | .ok fixture => (.ok number, { session with fixtures := session.fixtures ++ [some fixture] })
  | .error halt => (.error halt, { session with fixtures := session.fixtures ++ [none] })

/-- Opens a fixture without overrides, filled to the size configured for its name. -/
def openDefault (session : Session) (name : String) : Except Halt Nat × Session :=
  session.openFixture name (session.registry.storeSize name) Overrides.empty

/-- Lets a fixture act, if there is one of that number. -/
def act {α : Type} (session : Session) (number : Nat) (action : Fixture → α × Fixture) :
    Option α × Session :=
  match session.fixture? number with
  | some fixture =>
    let (answer, fixture) := action fixture
    (some answer, session.setFixture number fixture)
  | none => (none, session)

def generate (session : Session) (number : Nat) : Option (Except Halt Json) × Session :=
  session.act number fun fixture => fixture.generate session.setting session.depth

def fill (session : Session) (number count : Nat) : Option (Except Halt Unit) × Session :=
  session.act number fun fixture => fixture.fill session.setting session.depth count

def reseed (session : Session) (number : Nat) (seed : UInt64) : Option Unit × Session :=
  session.act number fun fixture => ((), fixture.reseed seed)

/-- Takes a relation from a fixture; it gets the next number whether it succeeds or not. -/
def relate (session : Session) (number : Nat) : Option (Except Error Nat) × Session :=
  match session.act number fun fixture => fixture.relate number with
  | (some (.ok relation), session) =>
    (some (.ok session.relations.length),
      { session with relations := session.relations ++ [some relation] })
  | (some (.error e), session) =>
    (some (.error e), { session with relations := session.relations ++ [none] })
  | (none, session) => (none, { session with relations := session.relations ++ [none] })

/-- Places picked by a relation, each with the entry there. -/
def entriesAt (session : Session) (relation : Relation) (places : List Nat) : List (Nat × Json) :=
  places.map fun place => (place, (session.stores relation.fixture).entry place)

def pick (session : Session) (number count : Nat) : Option (List (Nat × Json)) × Session :=
  match session.relation? number with
  | some relation =>
    let (places, relation) := relation.picks session.stores count
    (some (session.entriesAt relation places), session.setRelation number relation)
  | none => (none, session)

/-- Picks by a copy of a relation, which itself does not move on. -/
def pickApart (session : Session) (number count : Nat) : Option (List (Nat × Json)) :=
  (session.relation? number).map fun relation =>
    session.entriesAt relation (relation.picks session.stores count).1

end Session

end Specimen
