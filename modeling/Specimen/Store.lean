import Specimen.Primitive.Buffer
import Specimen.Primitive.Picker
import Specimen.Json.Basic

/-!
# Stores and relations

A store keeps the values a fixture was filled with, and a picker bounded by their number. A relation
picks from the store of one fixture with a source of its own.
-/

namespace Specimen

structure Store where
  entries : List Json
  picker : Option Picker

namespace Store

def empty : Store :=
  ⟨[], none⟩

/-- The greatest number of values that a store grows by at once; it keeps them by addresses of 8
bytes. -/
def room : Nat := Buffer.room 8

def size (store : Store) : Nat :=
  store.entries.length

/-- The store with values added at the end, under a picker for all of them. -/
def extend (store : Store) (added : List Json) (picker : Picker) : Store :=
  ⟨store.entries ++ added, some picker⟩

def entry (store : Store) (place : Nat) : Json :=
  store.entries.getD place .null

end Store

/-- The stores of the fixtures, by the numbers of these. -/
abbrev Stores := Nat → Store

structure Relation where
  schema : String
  fixture : Nat
  source : Source

namespace Relation

/-- The place of one entry of the store as it is now, and the relation after the pick. -/
def pick (relation : Relation) (stores : Stores) : Nat × Relation :=
  match (stores relation.fixture).picker with
  | some picker =>
    let (place, source) := picker.pick relation.source
    (place, { relation with source := source })
  | none => (0, relation)

def picks (relation : Relation) (stores : Stores) : Nat → List Nat × Relation
  | 0 => ([], relation)
  | count + 1 =>
    let (place, relation) := relation.pick stores
    let (places, relation) := relation.picks stores count
    (place :: places, relation)

end Relation

end Specimen
