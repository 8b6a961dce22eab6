import Specimen.Error
import Specimen.Primitive.Library
import Specimen.Schema.Reference

/-!
# Catalogs

The schemas registered by name, as they were written, and the library that builds their leaves.
-/

namespace Specimen

structure Catalog where
  schemas : List (String × Json)
  library : Library

namespace Catalog

def empty (library : Library) : Catalog :=
  ⟨[], library⟩

/-- Records a schema, in the place of any other of that name. -/
def insert (catalog : Catalog) (name : String) (schema : Json) : Catalog :=
  { catalog with schemas := Assoc.put name schema catalog.schemas }

def get? (catalog : Catalog) (name : String) : Option Json :=
  Assoc.get? name catalog.schemas

def require (catalog : Catalog) (name : String) : Except Error Json :=
  match catalog.get? name with
  | some schema => .ok schema
  | none => .error (.unregistered name)

def names (catalog : Catalog) : List String :=
  Assoc.keys catalog.schemas

/-- The node a reference points at in the schema of the given name. -/
def resolve (catalog : Catalog) (name : String) (reference : Reference) : Except Error Json :=
  match catalog.require name with
  | .ok document => ofSchema (reference.lookup document name)
  | .error e => .error e

end Catalog

end Specimen
