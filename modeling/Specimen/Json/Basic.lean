import Specimen.Assoc
import Specimen.Double.Arithmetic

/-!
# JSON values

Integers and floats are different values. An object keeps the order of its members, and its keys
are distinct in a well-formed value; equality ignores the order.
-/

namespace Specimen

inductive Json where
  | null
  | bool (value : Bool)
  | int (value : Int)
  | float (value : Double)
  | str (value : String)
  | arr (items : List Json)
  | obj (members : List (String × Json))
  deriving Inhabited

namespace Json

mutual

/-- The number of values in a value, itself included. -/
def size : Json → Nat
  | .arr items => 1 + sizeItems items
  | .obj members => 1 + sizeMembers members
  | _ => 1
termination_by structural node => node

def sizeItems : List Json → Nat
  | [] => 0
  | item :: rest => size item + sizeItems rest
termination_by structural items => items

def sizeMembers : List (String × Json) → Nat
  | [] => 0
  | (_, value) :: rest => size value + sizeMembers rest
termination_by structural members => members

end

mutual

/-- Equality of values: numbers of one kind agree by value, and objects in any member order. -/
def equal : Json → Json → Bool
  | .null, .null => true
  | .bool a, .bool b => a == b
  | .int a, .int b => a == b
  | .float a, .float b => a.equal b
  | .str a, .str b => a == b
  | .arr a, .arr b => equalItems a b
  | .obj a, .obj b => a.length == b.length && equalMembers a b
  | _, _ => false
termination_by structural node => node

def equalItems : List Json → List Json → Bool
  | [], [] => true
  | a :: restA, b :: restB => equal a b && equalItems restA restB
  | _, _ => false
termination_by structural items => items

/-- Every member of the first list has an equal one of the same key in the second. -/
def equalMembers : List (String × Json) → List (String × Json) → Bool
  | [], _ => true
  | (key, value) :: rest, others =>
    (match Assoc.get? key others with
      | some other => equal value other
      | none => false) && equalMembers rest others
termination_by structural members => members

end

mutual

/-- Keys are distinct in every object, integers have at most 64 bits and floats are finite. -/
def WellFormed : Json → Prop
  | .int n => Double.minInt64 ≤ n ∧ n < 0x10000000000000000
  | .float x => x.isFinite = true
  | .arr items => WellFormedItems items
  | .obj members => (Assoc.keys members).Nodup ∧ WellFormedMembers members
  | _ => True
termination_by structural node => node

def WellFormedItems : List Json → Prop
  | [] => True
  | item :: rest => WellFormed item ∧ WellFormedItems rest
termination_by structural items => items

def WellFormedMembers : List (String × Json) → Prop
  | [] => True
  | (_, value) :: rest => WellFormed value ∧ WellFormedMembers rest
termination_by structural members => members

end

def get? (key : String) : Json → Option Json
  | .obj members => Assoc.get? key members
  | _ => none

/-- The value without one member; what is no object has none to lose. -/
def without (key : String) : Json → Json
  | .obj members => .obj (Assoc.erase key members)
  | node => node

/-- The value with one member written; what is no object stays as it is. -/
def put (node : Json) (key : String) (value : Json) : Json :=
  match node with
  | .obj members => .obj (Assoc.put key value members)
  | node => node

def isNull : Json → Bool
  | .null => true
  | _ => false

def str? : Json → Option String
  | .str value => some value
  | _ => none

def items? : Json → Option (List Json)
  | .arr items => some items
  | _ => none

/-- The integer, if it is one that 64 bits with a sign can hold. -/
def int64? : Json → Option Int
  | .int n => if Double.minInt64 ≤ n ∧ n ≤ Double.maxInt64 then some n else none
  | _ => none

/-- The number as a double; an integer is rounded to the nearest. -/
def double? : Json → Option Double
  | .int n => some (Double.ofInt n)
  | .float x => some x
  | _ => none

end Json

end Specimen
