import Specimen.Primitive.Error
import Specimen.Primitive.Leaf
import Specimen.Schema.Constraints

/-!
# Numbers

Doubles between two bounds, each of which may be excluded.
-/

namespace Specimen

structure NumberRange where
  low : Double
  high : Double
  lowExclusive : Bool
  highExclusive : Bool
  deriving DecidableEq, Repr

namespace NumberRange

/-- The width of the range when at most one side is bounded. -/
def defaultSpan : Double := Double.ofInt 1000

def inclusive (value : Double) : Bound :=
  ⟨value, false⟩

/-- The range between two bounds; a side without one lies the default span from the other, or at
zero when that is on the way. -/
def span (lower upper : Option Bound) : Bound × Bound :=
  match lower, upper with
  | some low, some high => (low, high)
  | some low, none => (low, inclusive (low.value.add defaultSpan))
  | none, some high =>
    if Double.zero.lt high.value then (inclusive Double.zero, high)
    else (inclusive (high.value.sub defaultSpan), high)
  | none, none => (inclusive Double.zero, inclusive defaultSpan)

def isEmpty (low high : Bound) : Bool :=
  high.value.lt low.value ||
    (low.value.equal high.value && (low.exclusive || high.exclusive)) ||
    !low.value.isFinite || !high.value.isFinite

def ofConstraints (c : Constraints) : Except PrimitiveError NumberRange :=
  let (low, high) := span c.lower c.upper
  if isEmpty low high then .error (.emptyRange (.numbers low.value high.value))
  else .ok ⟨low.value, high.value, low.exclusive, high.exclusive⟩

/-- The middle of the range, found without leaving the doubles on the way. -/
def middle (range : NumberRange) : Double :=
  range.low.half.add range.high.half

/-- A point between the bounds. Where their distance is no double the bounds are weighted instead
of adding a part of the distance. -/
def drawInside (range : NumberRange) : Draw Double :=
  if (range.high.sub range.low).isFinite then Draw.doubleBetween range.low range.high
  else do
    let t ← Draw.unitDouble
    return (range.low.mul ((Double.ofInt 1).sub t)).add (range.high.mul t)

def draw (range : NumberRange) : Draw Double :=
  if range.low.equal range.high then pure range.low
  else do
    let x ← range.drawInside
    let outside := (range.lowExclusive && x.le range.low) || range.high.le x
    return if outside then range.middle else x

def contains (range : NumberRange) (x : Double) : Bool :=
  (if range.lowExclusive then range.low.lt x else range.low.le x) &&
    (if range.highExclusive then x.lt range.high else x.le range.high)

def leaf (range : NumberRange) : Leaf where
  generate := ExceptT.lift do return .float (← range.draw)
  validate value := some (match value.double? with
    | some x => range.contains x
    | none => false)

end NumberRange

end Specimen
