import Specimen.Primitive.Error
import Specimen.Primitive.Leaf
import Specimen.Schema.Constraints

/-!
# Lengths

A closed range of lengths, for texts and for lists, with the ranges that constraints mean.
-/

namespace Specimen

structure Lengths where
  min : Nat
  max : Nat
  min_le_max : min ≤ max
  deriving DecidableEq, Repr

namespace Lengths

/-- The greatest length of a text whose length is not bounded. -/
def defaultTextMax : Nat := 16

/-- The greatest length of a list whose length is not bounded. -/
def defaultListMax : Nat := 5

def contains (lengths : Lengths) (n : Nat) : Bool :=
  decide (lengths.min ≤ n) && decide (n ≤ lengths.max)

def draw (lengths : Lengths) : Draw Nat :=
  Draw.natBetween lengths.min lengths.max

/-- The lengths of a text: at least one character unless the maximum or the minimum says less. -/
def ofText (c : Constraints) : Except PrimitiveError Lengths :=
  let min := match c.minLength, c.maxLength with
    | some min, _ => min
    | none, some max => Nat.min max 1
    | none, none => 1
  let max := c.maxLength.getD (Nat.max min defaultTextMax)
  if h : max < min then .error (.emptyRange (.textLengths min max))
  else .ok ⟨min, max, Nat.le_of_not_lt h⟩

def forList (min max : Nat) : Except PrimitiveError Lengths :=
  if h : max < min then .error (.emptyRange (.listLengths min max))
  else .ok ⟨min, max, Nat.le_of_not_lt h⟩

def ofList (c : Constraints) : Except PrimitiveError Lengths :=
  let min := c.minItems.getD 0
  forList min (c.maxItems.getD (Nat.max min defaultListMax))

/-- The items at `count` places from `place` on, in order; the first failure ends the draw. -/
def items {α ε : Type} (item : Nat → ExceptT ε Draw α) (place : Nat) : Nat → ExceptT ε Draw (List α)
  | 0 => pure []
  | count + 1 => do
    let first ← item place
    return first :: (← items item (place + 1) count)

/-- Draws a length, and then makes room for so many places. -/
def reserve (lengths : Lengths) (room : Nat) : ExceptT Overflow Draw Nat := do
  let count ← ExceptT.lift lengths.draw
  if room < count then throw ⟨count⟩ else return count

/-- Draws a length, then an item for every place below it. A length beyond the room ends the draw
before the first item. -/
def fill {α ε : Type} (lengths : Lengths) (room : Nat) (overflow : Overflow → ε)
    (item : Nat → ExceptT ε Draw α) : ExceptT ε Draw (List α) := do
  items item 0 (← ExceptT.adapt overflow (lengths.reserve room))

/-- Texts of ASCII letters and digits. -/
def textLeaf (lengths : Lengths) : Leaf where
  generate := do
    let count ← lengths.reserve (Buffer.room 1)
    return .str (String.ofList (← ExceptT.lift (Draw.times Draw.alphanumeric count)))
  validate value := some (match value with
    | .str text => lengths.contains text.toList.length
    | _ => false)

end Lengths

end Specimen
