import Specimen.Registry
import Specimen.Yaml.Value

/-!
# Configurations

A configuration names schemas, how many values the stores of their fixtures hold to begin with, and
the seed. It is written as a document with a field for each; other fields do not count.
-/

namespace Specimen

structure Configuration where
  seed : Option UInt64
  stores : List (String × Nat)
  schemas : List (String × Json)

namespace Configuration

/-- The fields of a configuration that have been read. -/
structure Fields where
  seed : Option (Option UInt64)
  stores : Option (List (String × Nat))
  schemas : Option (List (String × Json))

namespace Fields

open Yaml

def empty : Fields :=
  ⟨none, none, none⟩

/-- How deep the collections of a document may be nested. -/
def maxDepth : Nat := 128

def readSeed (fields : Fields) (node : Node) : Reading Fields := do
  return { fields with seed := some ((← Reading.natural? node).map UInt64.ofNat) }

def readStores (fields : Fields) (node : Node) : Reading Fields := do
  return { fields with stores := some (← Reading.entries Reading.natural node) }

/-- A schema stands below two mappings. -/
def readSchemas (fields : Fields) (node : Node) : Reading Fields := do
  return { fields with schemas := some (← Reading.entries (Reading.value (maxDepth - 2)) node) }

/-- Reads one field, which may be there only once. -/
def read (fields : Fields) (name : String) (node : Node) : Reading Fields :=
  match name with
  | "seed" => if fields.seed.isSome then failure else fields.readSeed node
  | "stores" => if fields.stores.isSome then failure else fields.readStores node
  | "schemas" => if fields.schemas.isSome then failure else fields.readSchemas node
  | _ => return fields

/-- Reads the fields by name, or in their order out of a sequence. -/
def ofNode (node : Node) : Reading Fields :=
  match node with
  | .mapping _ entries =>
    entries.foldlM (fun fields (key, node) => do fields.read (← Reading.keyText key) node) empty
  | .sequence _ [] => return empty
  | .sequence _ [seed] => empty.readSeed seed
  | .sequence _ [seed, stores] => do (← empty.readSeed seed).readStores stores
  | .sequence _ [seed, stores, schemas] => do
    (← (← empty.readSeed seed).readStores stores).readSchemas schemas
  | node => if Reading.isBlank node then return empty else failure

/-- A field that is not given is empty. -/
def configuration (fields : Fields) : Configuration :=
  ⟨fields.seed.join, fields.stores.getD [], fields.schemas.getD []⟩

end Fields

/-- The number of aliases that may be followed for each step of a document. -/
def aliasesPerStep : Nat := 100

/-- The configuration in a document, which need not name any schema. -/
def parse? (text : String) : Option Configuration := do
  match ← Yaml.document? text with
  | some node =>
    let (fields, _) ← Fields.ofNode node (aliasesPerStep * node.steps)
    return fields.configuration
  | none => return Fields.empty.configuration

def ofText (text : String) : Except Error Configuration :=
  match parse? text with
  | none => .error .malformed
  | some configuration =>
    if configuration.schemas.isEmpty then .error (.configuration .noSchemas) else .ok configuration

/-- The configuration in a file, given what the file holds; there may be no such file. -/
def ofFile (contents : Option ByteArray) : Except Error Configuration :=
  match contents with
  | none => .error (.unreadable .notFound)
  | some bytes =>
    match String.fromUTF8? bytes with
    | some text => ofText text
    | none => .error (.unreadable .notText)

end Configuration

namespace Registry

/-- Registers schemas one after the other, up to the first that does not compile. -/
def addAll : List (String × Json) → ExceptT Error (StateM Registry) Unit
  | [] => return
  | (name, schema) :: rest => do
    add name schema
    addAll rest

/-- The registry of a configuration. A store size must be for one of its schemas. -/
def ofConfiguration (configuration : Configuration) : Except Error Registry :=
  let names := Assoc.keys configuration.schemas
  match (Assoc.keys configuration.stores).find? fun name => !names.contains name with
  | some name => .error (.configuration (.unknownStore name))
  | none =>
    match addAll configuration.schemas (Registry.empty Library.standard) with
    | (.ok (), registry) =>
      .ok { registry with seed := configuration.seed, storeSizes := configuration.stores }
    | (.error e, _) => .error e

end Registry

end Specimen
