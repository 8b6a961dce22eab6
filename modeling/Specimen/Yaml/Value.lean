import Specimen.Double.Decimal
import Specimen.Json.Basic
import Specimen.Yaml.Node

/-!
# Values of nodes

A plain scalar without a tag is what its text looks like: null, a truth value, a number or else a
text. A tag of the core schema forces a reading, and a local tag has none.
-/

namespace Specimen

namespace Yaml

namespace Scalar

/-- A number in digits of the base, of which there must be one. -/
def natural? (base : Nat) (cs : List Char) : Option Nat :=
  if cs = [] then none
  else Text.digits? base cs

/-- Digits that begin with a zero, other than the zero alone, are no number. -/
def isZeroLed (cs : List Char) : Bool :=
  1 < cs.length && cs.head? = some '0' && cs.all Char.isDigit

/-- The sign of a number and what follows it. -/
def signOf : List Char → Bool × List Char
  | '-' :: rest => (true, rest)
  | '+' :: rest => (false, rest)
  | cs => (false, cs)

def magnitude? : List Char → Option Nat
  | '0' :: 'x' :: digits => natural? 16 digits
  | '0' :: 'o' :: digits => natural? 8 digits
  | '0' :: 'b' :: digits => natural? 2 digits
  | digits => if isZeroLed digits then none else natural? 10 digits

/-- A whole number of any size, decimal or with the mark of another base. -/
def integer? (cs : List Char) : Option Int :=
  let (negative, rest) := signOf cs
  (magnitude? rest).map fun n => if negative then -(n : Int) else n

def infinities : List String :=
  [".inf", ".Inf", ".INF", "+.inf", "+.Inf", "+.INF", "-.inf", "-.Inf", "-.INF"]

def notNumbers : List String :=
  [".nan", ".NaN", ".NAN"]

/-- A decimal number: digits around an optional point, with an optional exponent. -/
def decimal? (cs : List Char) : Option Decimal :=
  let (negative, rest) := signOf cs
  let whole := rest.takeWhile Char.isDigit
  let rest := rest.dropWhile Char.isDigit
  let (fraction, rest) := match rest with
    | '.' :: rest => (rest.takeWhile Char.isDigit, rest.dropWhile Char.isDigit)
    | rest => ([], rest)
  if whole = [] ∧ fraction = [] then none
  else
    let exponent := match rest with
      | [] => some 0
      | mark :: rest =>
        if (mark = 'e' ∨ mark = 'E') ∧ natural? 10 (signOf rest).2 ≠ none then
          some (Text.signedValue rest)
        else none
    exponent.map fun e =>
      ⟨negative, Text.decimalValue (whole ++ fraction), e - (fraction.length : Int)⟩

/-- A float; what is not finite is read as null, and a decimal beyond the range is none. -/
def float? (text : String) : Option Json :=
  if infinities.contains text || notNumbers.contains text then some .null
  else match decimal? text.toList with
    | some d => if d.toDouble.isFinite then some (.float d.toDouble) else none
    | none => none

def isNull (text : String) : Bool :=
  text = "null" || text = "Null" || text = "NULL" || text = "~"

def bool? (text : String) : Option Bool :=
  if text = "true" || text = "True" || text = "TRUE" then some true
  else if text = "false" || text = "False" || text = "FALSE" then some false
  else none

def minInt128 : Int := -0x80000000000000000000000000000000

def maxNat128 : Int := 0xffffffffffffffffffffffffffffffff

/-- An integer as a value. One that needs more than 64 bits has none; from 128 bits on a number is
not looked at as an integer, which is what the inner `none` says. -/
def integerValue? (text : String) : Option (Option Json) :=
  match integer? text.toList with
  | none => some none
  | some n =>
    if Double.minInt64 ≤ n ∧ n < 0x10000000000000000 then some (some (.int n))
    else if minInt128 ≤ n ∧ n ≤ maxNat128 then none
    else some none

/-- What a plain scalar looks like. -/
def plainValue? (text : String) : Option Json :=
  if text = "" || isNull text then some .null
  else match bool? text with
    | some b => some (.bool b)
    | none => do
      match ← integerValue? text with
      | some value => return value
      | none =>
        if isZeroLed (signOf text.toList).2 then return .str text
        else return (float? text).getD (.str text)

def boolTag : String := "tag:yaml.org,2002:bool"

def integerTag : String := "tag:yaml.org,2002:int"

def floatTag : String := "tag:yaml.org,2002:float"

def nullTag : String := "tag:yaml.org,2002:null"

def isLocal (tag : Option String) : Bool :=
  tag.any fun tag => tag.toList.head? = some '!'

def value? (tag : Option String) (style : Style) (text : String) : Option Json :=
  match tag with
  | none => if style = .plain then plainValue? text else some (.str text)
  | some tag =>
    if isLocal (some tag) then none
    else if tag = boolTag then (bool? text).map .bool
    else if tag = integerTag then do ← integerValue? text
    else if tag = floatTag then float? text
    else if tag = nullTag then (if isNull text then some .null else none)
    else some (.str text)

end Scalar

/-- Reading nodes as values; the state is the number of aliases that may still be followed. -/
abbrev Reading := StateT Nat Option

namespace Reading

def followAlias : Reading Unit := do
  match ← get with
  | 0 => failure
  | left + 1 => set left

/-- The text of a key, whatever it looks like. -/
def keyText : Node → Reading String
  | .scalar _ _ text => return text
  | .alias target => do
    followAlias
    keyText target
  | _ => failure

mutual

/-- The value of a node in which collections may be `depth` levels deep. -/
def value (depth : Nat) (node : Node) : Reading Json :=
  match node with
  | .scalar tag style text => (Scalar.value? tag style text : Option Json)
  | .sequence tag items => do
    if Scalar.isLocal tag || depth = 0 then failure
    else return .arr (← values (depth - 1) items)
  | .mapping tag entries => do
    if Scalar.isLocal tag || depth = 0 then failure
    else return .obj (← members (depth - 1) [] entries)
  | .alias target => do
    followAlias
    value depth target
  | .cyclic => failure
termination_by structural node

def values (depth : Nat) (items : List Node) : Reading (List Json) :=
  match items with
  | [] => return []
  | item :: rest => do
    let first ← value depth item
    return first :: (← values depth rest)
termination_by structural items

/-- The members of a mapping behind those read already; a key given twice keeps its first place and
its last value. -/
def members (depth : Nat) (done : List (String × Json)) (entries : List (Node × Node)) :
    Reading (List (String × Json)) :=
  match entries with
  | [] => return done
  | (key, node) :: rest => do
    let name ← keyText key
    let json ← value depth node
    members depth (Assoc.put name json done) rest
termination_by structural entries

end

/-- Whether a node reads as nothing where a collection is wanted. -/
def isBlank : Node → Bool
  | .scalar _ style text => style = .plain && text = ""
  | _ => false

/-- A number without sign that 64 bits can hold, in plain text with any tag, or in a literal with the
tag of integers. -/
def natural (node : Node) : Reading Nat :=
  match node with
  | .alias target => do
    followAlias
    natural target
  | .scalar tag style text =>
    if style = .plain || (style = .literal && tag = some Scalar.integerTag) then
      match Scalar.integer? text.toList with
      | some (.ofNat n) => if n < 0x10000000000000000 then return n else failure
      | _ => failure
    else failure
  | _ => failure

/-- Like `natural`, or nothing where null or no text stands. -/
def natural? (node : Node) : Reading (Option Nat) :=
  match node with
  | .alias target => do
    followAlias
    natural? target
  | .scalar tag .plain text =>
    if tag = some Scalar.nullTag then if Scalar.isNull text then return none else failure
    else if tag = none ∧ (text = "" ∨ Scalar.isNull text = true) then return none
    else do return some (← natural (.scalar tag .plain text))
  | node => do return some (← natural node)

/-- The entries of a mapping whose keys are texts, each value read in the same way. -/
def entries {α : Type} (read : Node → Reading α) (node : Node) : Reading (List (String × α)) :=
  match node with
  | .alias target => do
    followAlias
    entries read target
  | .mapping _ pairs =>
    pairs.foldlM (fun done (key, node) => do
      let name ← keyText key
      let value ← read node
      return Assoc.put name value done) []
  | node => if isBlank node then return [] else failure

end Reading

end Yaml

end Specimen
