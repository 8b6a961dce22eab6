/-!
# Keywords and type names

The nine keywords that decide what a schema node is, in the order in which they are asked, and the
seven names a value's type can have.
-/

namespace Specimen

inductive Keyword where
  | ref
  | anyOf
  | allOf
  | oneOf
  | enum
  | type
  | format
  | properties
  | items
  deriving DecidableEq, Repr

namespace Keyword

def text : Keyword → String
  | .ref => "$ref"
  | .anyOf => "anyOf"
  | .allOf => "allOf"
  | .oneOf => "oneOf"
  | .enum => "enum"
  | .type => "type"
  | .format => "format"
  | .properties => "properties"
  | .items => "items"

theorem text_ne {keyword other : Keyword} (h : keyword ≠ other) : keyword.text ≠ other.text := by
  revert h
  cases keyword <;> cases other <;> decide

/-- The order in which keywords are asked; the first one present decides. -/
def precedence : List Keyword :=
  [.ref, .anyOf, .allOf, .oneOf, .enum, .type, .format, .properties, .items]

end Keyword

inductive TypeName where
  | array
  | boolean
  | integer
  | number
  | null
  | object
  | string
  deriving DecidableEq, Repr

namespace TypeName

def text : TypeName → String
  | .array => "array"
  | .boolean => "boolean"
  | .integer => "integer"
  | .number => "number"
  | .null => "null"
  | .object => "object"
  | .string => "string"

def all : List TypeName :=
  [.array, .boolean, .integer, .number, .null, .object, .string]

def ofText? (name : String) : Option TypeName :=
  all.find? fun type => type.text = name

@[simp] theorem ofText?_text (type : TypeName) : ofText? type.text = some type := by
  cases type <;> decide

end TypeName

end Specimen
