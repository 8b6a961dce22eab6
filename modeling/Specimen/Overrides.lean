import Specimen.Generator.Draft
import Specimen.Store
import Specimen.Text.Split

/-!
# Overrides

An override replaces what would be generated at one path of properties. Paths are written with
points and kept as segments.
-/

namespace Specimen

inductive Override where
  /-- Generated like any other node. -/
  | generator (generator : Generator)
  /-- Values given one per call; `calls` of them are used up. A function owns its state, so nothing
  but its own calls decides what it gives next. -/
  | function (answers : Nat → Json) (calls : Nat)
  /-- A pick from the store of another fixture for every call. -/
  | relation (relation : Relation)
  | value (value : Json)

abbrev Path := List String

namespace Path

/-- The segments of a dotted path; an empty text is one empty segment. -/
def ofText (text : String) : Path :=
  (Text.split '.' text.toList).map String.ofList

def text (path : Path) : String :=
  String.ofList (Text.join '.' (path.map String.toList))

end Path

/-- The overrides by path, in the order in which paths first came. -/
structure Overrides where
  entries : List (Path × Override)

namespace Overrides

def empty : Overrides :=
  ⟨[]⟩

def get? (overrides : Overrides) (path : Path) : Option Override :=
  Assoc.get? path overrides.entries

def contains (overrides : Overrides) (path : Path) : Bool :=
  (overrides.get? path).isSome

def set (overrides : Overrides) (path : Path) (entry : Override) : Overrides :=
  ⟨Assoc.put path entry overrides.entries⟩

/-- Sets the override at a dotted path; the other result is the one it replaces. -/
def insert (overrides : Overrides) (text : String) (entry : Override) :
    Option Override × Overrides :=
  (overrides.get? (Path.ofText text), overrides.set (Path.ofText text) entry)

def segments (overrides : Overrides) : List Path :=
  Assoc.keys overrides.entries

/-- Texts in the order of their code points. -/
def sorted (texts : List String) : List String :=
  texts.mergeSort fun a b => decide (a ≤ b)

/-- The dotted paths in order. -/
def paths (overrides : Overrides) : List String :=
  sorted (overrides.segments.map Path.text)

def size (overrides : Overrides) : Nat :=
  overrides.entries.length

end Overrides

/-- The chain of references and properties that is followed to find a path. -/
def maxPathDepth : Nat := 32

namespace Catalog

/-- Whether a path leads to a property from a node, through references and the branches of
combinators. What is not registered or not there is not reached. -/
def reaches (catalog : Catalog) (depth : Nat) (schema : String) (node : Json) (path : Path) : Bool :=
  match path with
  | [] => true
  | segment :: rest =>
    match depth with
    | 0 => false
    | depth + 1 =>
      match (node.get? Keyword.ref.text).bind Json.str? with
      | some pointer =>
        match Reference.parse pointer with
        | .error _ => false
        | .ok reference =>
          let owner := reference.schemaOr schema
          match catalog.resolve owner reference with
          | .error _ => false
          | .ok target =>
            reaches catalog depth owner (target.merge (node.without Keyword.ref.text))
              (segment :: rest)
      | none =>
        (match (node.get? Keyword.properties.text).bind (Json.get? segment) with
          | some property => reaches catalog depth schema property rest
          | none => false) ||
        [Keyword.anyOf, .oneOf, .allOf].any fun keyword =>
          match (node.get? keyword.text).bind Json.items? with
          | some branches =>
            branches.any fun branch => reaches catalog depth schema branch (segment :: rest)
          | none => false

/-- Whether a path names a property of a schema. Below an array the paths start at its elements. -/
def hasPath (catalog : Catalog) (schema : String) (node : Json) (path : Path) : Bool :=
  let reach := fun node => catalog.reaches (maxPathDepth + 1) schema node path
  if (node.get? Keyword.type.text).bind Json.str? = some TypeName.array.text then
    match node.get? Keyword.items.text with
    | some (.arr places) => places.any reach
    | some item => reach item
    | none => false
  else reach node

end Catalog

end Specimen
