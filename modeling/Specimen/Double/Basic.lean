/-!
# Binary64 numbers

A `Double` is a 64-bit word read as a sign, an eleven-bit exponent and a 52-bit fraction. A finite
word stands for `units x` times the least positive value, an exact integer. Order and equality go
by `rank`, which grows with the value and puts both zeros at the same place.
-/

namespace Specimen

structure Double where
  bits : UInt64
  deriving DecidableEq, Repr, Inhabited

namespace Double

def signWeight : Nat := 0x8000000000000000

def fractionCount : Nat := 0x10000000000000

/-- The magnitude of the two infinities; larger magnitudes are not numbers. -/
def infiniteMagnitude : Nat := 0x7ff0000000000000

def negative (x : Double) : Bool :=
  decide (signWeight ≤ x.bits.toNat)

/-- The word without its sign bit. -/
def magnitude (x : Double) : Nat :=
  x.bits.toNat % signWeight

def exponent (x : Double) : Nat :=
  x.magnitude / fractionCount

def fraction (x : Double) : Nat :=
  x.magnitude % fractionCount

def isFinite (x : Double) : Bool :=
  decide (x.magnitude < infiniteMagnitude)

def isNaN (x : Double) : Bool :=
  decide (infiniteMagnitude < x.magnitude)

def ofMagnitude (negative : Bool) (magnitude : Nat) : Double :=
  ⟨UInt64.ofNat (if negative then signWeight + magnitude else magnitude)⟩

def zero : Double := ⟨0⟩

def infinity (negative : Bool) : Double :=
  ofMagnitude negative infiniteMagnitude

/-- The common exponent of all finite values: the least positive one is `1 / 2 ^ unitExponent`. -/
def unitExponent : Nat := 1074

/-- The number of units in one. -/
def one : Nat := Nat.pow 2 unitExponent

/-- The units of a magnitude: the fraction alone below the least normal number, and else the
fraction under a leading one, shifted by the exponent. -/
def unitsOfMagnitude (magnitude : Nat) : Nat :=
  if magnitude / fractionCount = 0 then magnitude % fractionCount
  else (fractionCount + magnitude % fractionCount) * Nat.pow 2 (magnitude / fractionCount - 1)

/-- The exact value of a finite number, counted in units of the least positive one. -/
def units (x : Double) : Int :=
  if x.negative then -(unitsOfMagnitude x.magnitude : Int) else unitsOfMagnitude x.magnitude

/-- The place of a number in the order of values; both zeros have place zero. -/
def rank (x : Double) : Int :=
  if x.negative then -(x.magnitude : Int) else x.magnitude

def le (x y : Double) : Bool :=
  !x.isNaN && !y.isNaN && decide (x.rank ≤ y.rank)

def lt (x y : Double) : Bool :=
  !x.isNaN && !y.isNaN && decide (x.rank < y.rank)

/-- Equality of values: both zeros agree, and what is not a number differs from everything. -/
def equal (x y : Double) : Bool :=
  !x.isNaN && !y.isNaN && decide (x.rank = y.rank)

/-- The larger of two numbers, the second of two equal ones; what is not a number gives way. -/
def max (x y : Double) : Double :=
  if y.isNaN || y.lt x then x else y

/-- The smaller of two numbers, the second of two equal ones; what is not a number gives way. -/
def min (x y : Double) : Double :=
  if y.isNaN || x.lt y then x else y

def neg (x : Double) : Double :=
  ofMagnitude (!x.negative) x.magnitude

/-- Whether a number has no fractional part. -/
def isIntegral (x : Double) : Bool :=
  x.isFinite && decide (x.units % (one : Int) = 0)

end Double

end Specimen
