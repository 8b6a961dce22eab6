import Specimen.Schema.Error

/-!
# What a schema node is

A node is what the first keyword of `Keyword.precedence` on it says. A keyword whose value is null
counts as absent, and a node that is no object, or has none of the keywords, is empty.
-/

namespace Specimen

inductive Kind where
  | reference (pointer : String)
  | anyOf (branches : List Json)
  | allOf (branches : List Json)
  | oneOf (branches : List Json)
  | enumeration (values : List Json)
  | single (type : TypeName)
  | union (types : List TypeName)
  | format (name : String)
  | properties
  | items
  | empty

namespace Kind

def label : Kind → String
  | .reference _ => "ref"
  | .anyOf _ => "anyOf"
  | .allOf _ => "allOf"
  | .oneOf _ => "oneOf"
  | .enumeration _ => "enum"
  | .single type => type.text
  | .union _ => "type-union"
  | .format _ => "format"
  | .properties => "properties"
  | .items => "items"
  | .empty => "empty"

end Kind

namespace Json

/-- The value of a keyword, with null counted as absent. -/
def present? (keyword : Keyword) (node : Json) : Option Json :=
  match node.get? keyword.text with
  | some .null => none
  | other => other

def isPresent (node : Json) (keyword : Keyword) : Bool :=
  (node.present? keyword).isSome

/-- The deciding keywords that a node has. -/
def presentKeywords (node : Json) : List Keyword :=
  Keyword.precedence.filter node.isPresent

/-- The runtime type of a value. A float without fraction is an integer too. -/
def hasType (value : Json) (type : TypeName) : Bool :=
  match type, value with
  | .array, .arr _ => true
  | .boolean, .bool _ => true
  | .integer, .int _ => true
  | .integer, .float x => x.isIntegral
  | .number, .int _ => true
  | .number, .float _ => true
  | .null, .null => true
  | .object, .obj _ => true
  | .string, .str _ => true
  | _, _ => false

end Json

namespace TypeName

def read (name : String) : Except SchemaError TypeName :=
  match ofText? name with
  | some type => .ok type
  | none => .error (.unknownType name)

/-- Reads one entry of a list of type names. -/
def readEntry (entry : Json) : Except SchemaError TypeName :=
  match entry with
  | .str name => read name
  | _ => .error (.misused .type .notTypeNames)

end TypeName

namespace Kind

def branches (keyword : Keyword) (value : Json) : Except SchemaError (List Json) :=
  match value with
  | .arr [] => .error (.noBranches keyword)
  | .arr nodes => .ok nodes
  | _ => .error (.misused keyword .notSchemas)

/-- The kind that a `type` keyword declares; a list with one name means that name. -/
def ofType (value : Json) : Except SchemaError Kind :=
  match value with
  | .str name => .single <$> TypeName.read name
  | .arr entries =>
    match entries.mapM TypeName.readEntry with
    | .error e => .error e
    | .ok [] => .error (.misused .type .noTypes)
    | .ok [type] => .ok (.single type)
    | .ok types => .ok (.union types)
  | _ => .error (.misused .type .notTypes)

/-- The kind that one keyword with this value declares. -/
def ofKeyword (keyword : Keyword) (value : Json) : Except SchemaError Kind :=
  match keyword with
  | .ref =>
    match value with
    | .str pointer => .ok (.reference pointer)
    | _ => .error (.misused .ref .notString)
  | .anyOf => .anyOf <$> branches .anyOf value
  | .allOf => .allOf <$> branches .allOf value
  | .oneOf => .oneOf <$> branches .oneOf value
  | .enum =>
    match value with
    | .arr values => .ok (.enumeration values)
    | _ => .error (.misused .enum .notArray)
  | .type => ofType value
  | .format =>
    match value with
    | .str name => .ok (.format name)
    | _ => .error (.misused .format .notString)
  | .properties => .ok .properties
  | .items => .ok .items

/-- Asks the keywords in turn; the first one present decides. -/
def ofKeywords (node : Json) : List Keyword → Except SchemaError Kind
  | [] => .ok .empty
  | keyword :: rest =>
    match node.present? keyword with
    | some value => ofKeyword keyword value
    | none => ofKeywords node rest

end Kind

/-- What a schema node is, or what is wrong with the keyword that decides it. -/
def classify (node : Json) : Except SchemaError Kind :=
  Kind.ofKeywords node Keyword.precedence

end Specimen
