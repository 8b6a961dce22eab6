import Specimen.Primitive.Error
import Specimen.Schema.Error

/-!
# What can go wrong

Every failure of compiling, generating and configuring is a cause; the wording is in `message`.
-/

namespace Specimen

inductive ConfigurationError where
  | noSchemas
  | unknownStore (name : String)
  deriving DecidableEq, Repr

namespace ConfigurationError

def message : ConfigurationError → String
  | .noSchemas => "no schemas configured"
  | .unknownStore name => s!"store size given for unknown schema '{name}'"

end ConfigurationError

/-- Why a file gives no text. -/
inductive FileError where
  | notFound
  | notText
  deriving DecidableEq, Repr

namespace FileError

def message : FileError → String
  | .notFound => "No such file or directory (os error 2)"
  | .notText => "stream did not contain valid UTF-8"

end FileError

inductive Error where
  | unregistered (name : String)
  | schema (cause : SchemaError)
  | primitive (cause : PrimitiveError)
  | emptyStore (name : String)
  | configuration (cause : ConfigurationError)
  | unreadable (cause : FileError)
  | malformed

namespace Error

def message : Error → String
  | .unregistered name => s!"Schema not registered: {name}"
  | .schema cause => s!"Schema error: {cause.message}"
  | .primitive cause => s!"Primitive generator error: {cause.message}"
  | .emptyStore name => s!"Store for schema '{name}' is empty"
  | .configuration cause => s!"Invalid configuration: {cause.message}"
  | .unreadable cause => s!"Failed to read config file: {cause.message}"
  | .malformed => "Failed to parse YAML"

/-- Whether the cause is a schema or a pointer's target that is missing. -/
def isLookup : Error → Bool
  | .unregistered _ => true
  | .schema (.missingSegment ..) => true
  | _ => false

end Error

/-- The outcome of a fallible step with its error as one of the library's. -/
def ofSchema {α : Type} : Except SchemaError α → Except Error α
  | .ok value => .ok value
  | .error cause => .error (.schema cause)

def ofPrimitive {α : Type} : Except PrimitiveError α → Except Error α
  | .ok value => .ok value
  | .error cause => .error (.primitive cause)

end Specimen
