import Specimen.Primitive.Error
import Specimen.Primitive.Leaf
import Specimen.Schema.Constraints

/-!
# Integers

Integers of a closed range inside 64 bits, all of them or the multiples of a step.
-/

namespace Specimen

structure IntegerRange where
  min : Int
  max : Int
  step : Option Int
  deriving DecidableEq, Repr

namespace IntegerRange

/-- The width of the range when at most one side is bounded. -/
def defaultSpan : Int := 1000

/-- The value of two to the 63rd as a double. -/
def limit : Double := Double.ofInt 0x8000000000000000

def clamp (n : Int) : Int :=
  if n < Double.minInt64 then Double.minInt64
  else if Double.maxInt64 < n then Double.maxInt64
  else n

def between (min max : Int) : Except PrimitiveError IntegerRange :=
  if max < min then .error (.emptyRange (.integers min max)) else .ok ⟨min, max, none⟩

/-- The least integer that a lower bound allows. A bound below all 64-bit integers is met by the
least of them; one above them leaves nothing. -/
def least (bound : Bound) : Except PrimitiveError Int :=
  let lowest :=
    if bound.exclusive then bound.value.floor.add (Double.ofInt 1) else bound.value.ceil
  if limit.le lowest then .error (.emptyRange (.lowerBeyond bound.value))
  else .ok (lowest.max limit.neg).toInt64

/-- The greatest integer that an upper bound allows. A bound above all 64-bit integers is met by
the greatest of them; one below them leaves nothing. -/
def greatest (bound : Bound) : Except PrimitiveError Int :=
  let highest :=
    if bound.exclusive then bound.value.ceil.sub (Double.ofInt 1) else bound.value.floor
  if highest.lt limit.neg then .error (.emptyRange (.upperBeyond bound.value))
  else .ok (if limit.le highest then Double.maxInt64 else highest.toInt64)

/-- The range between two limits; a side without one lies the default span from the other, or at
zero when that is on the way. -/
def span (least greatest : Option Int) : Int × Int :=
  match least, greatest with
  | some min, some max => (min, max)
  | some min, none => (min, clamp (min + defaultSpan))
  | none, some max => if 0 ≤ max then (0, max) else (clamp (max - defaultSpan), max)
  | none, none => (0, defaultSpan)

/-- The quotient rounded up, for a positive divisor. -/
def ceilDiv (a b : Int) : Int :=
  a / b + (if a % b = 0 then 0 else 1)

/-- The step that a `multipleOf` asks for; a fractional one divides every integer. -/
def stepOf (multiple : Double) : Option Int :=
  if (Double.ofInt 1).le multiple && multiple.isIntegral then some multiple.toInt64 else none

def withStep (range : IntegerRange) (step : Int) : Except PrimitiveError IntegerRange :=
  if range.max / step < ceilDiv range.min step then
    .error (.emptyRange (.multiples step range.min range.max))
  else .ok { range with step := some step }

def ofConstraints (c : Constraints) : Except PrimitiveError IntegerRange := do
  let lower ← c.lower.mapM least
  let upper ← c.upper.mapM greatest
  let (min, max) := span lower upper
  let range ← between min max
  match c.multipleOf.bind stepOf with
  | some step => range.withStep step
  | none => return range

def contains (range : IntegerRange) (n : Int) : Bool :=
  decide (range.min ≤ n) && decide (n ≤ range.max) &&
    (match range.step with
      | some step => decide (n % step = 0)
      | none => true)

def draw (range : IntegerRange) : Draw Int :=
  match range.step with
  | some step => do
    return (← Draw.intBetween (ceilDiv range.min step) (range.max / step)) * step
  | none => Draw.intBetween range.min range.max

/-- The 64-bit integer that a number stands for, however it is written. -/
def integer? (value : Json) : Option Int :=
  match value.int64? with
  | some n => some n
  | none =>
    match value.double? with
    | some x =>
      if x.isIntegral && limit.neg.lt x && x.lt limit then some x.toInt64 else none
    | none => none

def leaf (range : IntegerRange) : Leaf where
  generate := ExceptT.lift do return .int (← range.draw)
  validate value := some (match integer? value with
    | some n => range.contains n
    | none => false)

end IntegerRange

end Specimen
