import Specimen.Catalog

/-!
# Generators

A generator is a compiled schema node. A reference stays as it is written and is looked up each time
a value is generated.
-/

namespace Specimen

inductive Generator where
  /-- A reference into a schema, with the members that stood beside it. -/
  | reference (schema : String) (target : Reference) (overlay : Json)
  /-- One of several candidates, picked anew each time. -/
  | choice (keyword : Keyword) (candidates : List Generator) (picker : Picker)
  /-- The one generator of a merged node. -/
  | allOf (merged : Generator)
  | leaf (leaf : Leaf)
  | enumeration (values : List Json) (picker : Picker)
  | empty
  | object (fields : List (String × Generator))
  /-- An array with a generator for every place. -/
  | tuple (items : List Generator)
  | list (item : Generator) (lengths : Lengths)

namespace Generator

mutual

/-- Whether a value is one the generator allows; `none` when it has no opinion. A part without one
passes, and a missing member or element counts as null. -/
def validate : Generator → Json → Option Bool
  | .reference .., _ => none
  | .choice .., _ => none
  | .allOf merged, value => validate merged value
  | .leaf l, value => l.validate value
  | .enumeration values _, value => some (values.any (Json.equal · value))
  | .empty, _ => some true
  | .object fields, value =>
    match value with
    | .obj members => some (validateFields fields members)
    | _ => some false
  | .tuple items, value =>
    match value with
    | .arr values => some (validatePlaces items values)
    | _ => some false
  | .list item lengths, value =>
    match value with
    | .arr values =>
      some (lengths.contains values.length && values.all fun v => (validate item v).getD true)
    | _ => some false
termination_by structural generator => generator

def validateFields : List (String × Generator) → List (String × Json) → Bool
  | [], _ => true
  | (name, generator) :: rest, members =>
    (validate generator ((Assoc.get? name members).getD .null)).getD true &&
      validateFields rest members
termination_by structural fields => fields

def validatePlaces : List Generator → List Json → Bool
  | [], _ => true
  | generator :: rest, values =>
    (validate generator (values.head?.getD .null)).getD true && validatePlaces rest values.tail
termination_by structural generators => generators

end

end Generator

end Specimen
