import Specimen.Json.Basic
import Specimen.Schema.Keyword
import Specimen.Double.Decimal
import Specimen.Text.Quoted

/-!
# What can be wrong with a schema

Each error is a cause; the wording of all of them is in `message`.
-/

namespace Specimen

/-- What a constraint keyword's value should have been. -/
inductive ConstraintKind where
  | number
  | count
  | text
  deriving DecidableEq, Repr

namespace ConstraintKind

def expectation : ConstraintKind → String
  | .number => "f64"
  | .count => "usize"
  | .text => "a string"

end ConstraintKind

inductive ConstraintError where
  | wrongKind (found : Json) (expected : ConstraintKind)
  | negativeCount (value : Int)
  | badExclusive

namespace ConstraintError

/-- A value as an error names it: scalars with their content, containers by their shape alone. -/
def describe : Json → String
  | .null => "null"
  | .bool value => s!"boolean `{value}`"
  | .int value => s!"integer `{value}`"
  | .float value => s!"floating point `{value.textWithPoint}`"
  | .str value => s!"string {Text.quoted value}"
  | .arr _ => "sequence"
  | .obj _ => "map"

def message : ConstraintError → String
  | .wrongKind found expected =>
    s!"invalid type: {describe found}, expected {expected.expectation}"
  | .negativeCount value =>
    s!"invalid value: integer `{value}`, expected {ConstraintKind.count.expectation}"
  | .badExclusive => "data did not match any variant of untagged enum Exclusive"

end ConstraintError

/-- Why a keyword's value cannot be used. -/
inductive Misuse where
  | notString
  | notArray
  | notSchemas
  | notTypeNames
  | noTypes
  | notTypes
  | notProperties
  | notPrimitive (type : TypeName)
  deriving DecidableEq, Repr

namespace Misuse

def message : Misuse → String
  | .notString => "expected a string"
  | .notArray => "expected an array"
  | .notSchemas => "expected an array of schemas"
  | .notTypeNames => "expected type names"
  | .noTypes => "empty type list"
  | .notTypes => "expected a string or an array of strings"
  | .notProperties => "expected an object of schemas"
  | .notPrimitive type => s!"'{type.text}' is not a primitive type"

end Misuse

inductive SchemaError where
  | badReference (text : String)
  | missingSegment (schema pointer segment : String)
  | misused (keyword : Keyword) (misuse : Misuse)
  | noBranches (keyword : Keyword)
  | noValues (types : Option (List TypeName))
  | unknownType (name : String)
  | badConstraint (cause : ConstraintError)

namespace SchemaError

/-- The declared types of an enumeration as one label. -/
def typesLabel : Option (List TypeName) → String
  | none => "any"
  | some types => String.intercalate "|" (types.map TypeName.text)

def message : SchemaError → String
  | .badReference text => s!"Invalid $ref '{text}'"
  | .missingSegment schema pointer segment =>
    s!"Segment '{segment}' of '{pointer}' not found in schema '{schema}'"
  | .misused keyword misuse => s!"Invalid value for '{keyword.text}': {misuse.message}"
  | .noBranches keyword => s!"'{keyword.text}' requires at least one subschema"
  | .noValues types => s!"'enum' has no values of type '{typesLabel types}'"
  | .unknownType name => s!"Unknown type: {name}"
  | .badConstraint cause => s!"Invalid constraints: {cause.message}"

end SchemaError

end Specimen
