import Specimen.Schema.Error

/-!
# Constraints

The eleven keywords that narrow down a value, read from a node in the order of its members, and the
bounds that they mean together.
-/

namespace Specimen

/-- An exclusive bound: a mark on the inclusive one, or a bound of its own. -/
inductive Exclusive where
  | flag (value : Bool)
  | bound (value : Double)
  deriving DecidableEq, Repr

/-- The effective bound on one side. -/
structure Bound where
  value : Double
  exclusive : Bool
  deriving DecidableEq, Repr

structure Constraints where
  minimum : Option Double
  maximum : Option Double
  exclusiveMinimum : Option Exclusive
  exclusiveMaximum : Option Exclusive
  multipleOf : Option Double
  minLength : Option Nat
  maxLength : Option Nat
  pattern : Option String
  format : Option String
  minItems : Option Nat
  maxItems : Option Nat
  deriving DecidableEq, Repr

namespace Constraints

def none : Constraints :=
  ⟨.none, .none, .none, .none, .none, .none, .none, .none, .none, .none, .none⟩

def readNumber (value : Json) : Except ConstraintError (Option Double) :=
  match value with
  | .null => .ok .none
  | value =>
    match value.double? with
    | some x => .ok (some x)
    | _ => .error (.wrongKind value .number)

def readCount (value : Json) : Except ConstraintError (Option Nat) :=
  match value with
  | .null => .ok .none
  | .int n => if n < 0 then .error (.negativeCount n) else .ok (some n.toNat)
  | value => .error (.wrongKind value .count)

def readText (value : Json) : Except ConstraintError (Option String) :=
  match value with
  | .null => .ok .none
  | .str text => .ok (some text)
  | value => .error (.wrongKind value .text)

def readExclusive (value : Json) : Except ConstraintError (Option Exclusive) :=
  match value with
  | .null => .ok .none
  | .bool flag => .ok (some (.flag flag))
  | value =>
    match value.double? with
    | some x => .ok (some (.bound x))
    | _ => .error .badExclusive

/-- Takes one member of a node into the constraints; other keywords change nothing. -/
def readMember (c : Constraints) (key : String) (value : Json) :
    Except ConstraintError Constraints :=
  match key with
  | "minimum" => do return { c with minimum := ← readNumber value }
  | "maximum" => do return { c with maximum := ← readNumber value }
  | "exclusiveMinimum" => do return { c with exclusiveMinimum := ← readExclusive value }
  | "exclusiveMaximum" => do return { c with exclusiveMaximum := ← readExclusive value }
  | "multipleOf" => do return { c with multipleOf := ← readNumber value }
  | "minLength" => do return { c with minLength := ← readCount value }
  | "maxLength" => do return { c with maxLength := ← readCount value }
  | "pattern" => do return { c with pattern := ← readText value }
  | "format" => do return { c with format := ← readText value }
  | "minItems" => do return { c with minItems := ← readCount value }
  | "maxItems" => do return { c with maxItems := ← readCount value }
  | _ => .ok c

def readMembers (c : Constraints) : List (String × Json) → Except ConstraintError Constraints
  | [] => .ok c
  | (key, value) :: rest =>
    match c.readMember key value with
    | .ok c => readMembers c rest
    | .error e => .error e

/-- Reads the constraints of a node; what is no object has none. -/
def ofNode (node : Json) : Except SchemaError Constraints :=
  match node with
  | .obj members =>
    match readMembers none members with
    | .ok c => .ok c
    | .error e => .error (.badConstraint e)
  | _ => .ok none

/-- The bound that an inclusive and an exclusive one mean together, by the stricter of two
numbers. -/
def bound (inclusive : Option Double) (exclusive : Option Exclusive)
    (stricter : Double → Double → Double) : Option Bound :=
  match inclusive, exclusive with
  | some value, some (.flag flag) => some ⟨value, flag⟩
  | some value, some (.bound limit) =>
    let tighter := stricter value limit
    some ⟨tighter, tighter.equal limit⟩
  | .none, some (.bound limit) => some ⟨limit, true⟩
  | some value, .none => some ⟨value, false⟩
  | .none, _ => .none

def lower (c : Constraints) : Option Bound :=
  bound c.minimum c.exclusiveMinimum Double.max

def upper (c : Constraints) : Option Bound :=
  bound c.maximum c.exclusiveMaximum Double.min

def exclusiveJson : Option Exclusive → Json
  | .none => .null
  | some (.flag flag) => .bool flag
  | some (.bound x) => .float x

def numberJson : Option Double → Json
  | .none => .null
  | some x => .float x

def countJson : Option Nat → Json
  | .none => .null
  | some n => .int n

def textJson : Option String → Json
  | .none => .null
  | some text => .str text

/-- The constraints as a value with all eleven members. -/
def toJson (c : Constraints) : Json :=
  .obj [
    ("minimum", numberJson c.minimum),
    ("maximum", numberJson c.maximum),
    ("exclusiveMinimum", exclusiveJson c.exclusiveMinimum),
    ("exclusiveMaximum", exclusiveJson c.exclusiveMaximum),
    ("multipleOf", numberJson c.multipleOf),
    ("minLength", countJson c.minLength),
    ("maxLength", countJson c.maxLength),
    ("pattern", textJson c.pattern),
    ("format", textJson c.format),
    ("minItems", countJson c.minItems),
    ("maxItems", countJson c.maxItems)]

end Constraints

end Specimen
