import Specimen.Double.Basic

/-!
# Rounded arithmetic

Every operation finds the exact result as a ratio of integers and rounds once, to the nearest
double, a tie going to the even neighbour. What is too large becomes an infinity.
-/

namespace Specimen

namespace Double

/-- `n / d` to the nearest integer, a half going to the even neighbour. -/
def roundHalfEven (n d : Nat) : Nat :=
  let q := n / d
  let twice := 2 * (n % d)
  if twice < d then q
  else if d < twice then q + 1
  else if q % 2 = 0 then q else q + 1

/-- The number of binary digits of `n`; none for zero. -/
def bitLength (n : Nat) : Nat :=
  if n = 0 then 0 else Nat.log2 n + 1

/-- The magnitude nearest to `n / d` units. With at most 53 binary digits the count of units is the
magnitude itself; each further digit moves the exponent by one. -/
def magnitudeOfRatio (n d : Nat) : Nat :=
  let shift := bitLength (n / d) - 53
  let magnitude := shift * fractionCount + roundHalfEven n (d * Nat.pow 2 shift)
  if infiniteMagnitude < magnitude then infiniteMagnitude else magnitude

/-- The double nearest to `n / d` units, with the given sign. -/
def ofRatio (negative : Bool) (n d : Nat) : Double :=
  ofMagnitude negative (magnitudeOfRatio n d)

/-- The double nearest to an integer count of units; zero takes the sign given for it. -/
def ofUnits (zeroNegative : Bool) (u : Int) : Double :=
  if u = 0 then ofMagnitude zeroNegative 0 else ofRatio (decide (u < 0)) u.natAbs 1

def ofInt (i : Int) : Double :=
  ofRatio (decide (i < 0)) (i.natAbs * one) 1

/-- The double `n / 2 ^ k`, for `k` up to the exponent of a unit. -/
def ofBinary (n k : Nat) : Double :=
  ofRatio false (n * Nat.pow 2 (unitExponent - k)) 1

/-- The one quiet not-a-number that operations answer with. -/
def nan : Double := ⟨0x7ff8000000000000⟩

def add (x y : Double) : Double :=
  if x.isNaN || y.isNaN then nan
  else match x.isFinite, y.isFinite with
    | true, true => ofUnits (x.negative && y.negative) (x.units + y.units)
    | true, false => y
    | false, true => x
    | false, false => if x.negative = y.negative then x else nan

def sub (x y : Double) : Double :=
  add x y.neg

def mul (x y : Double) : Double :=
  let negative := x.negative != y.negative
  if x.isNaN || y.isNaN then nan
  else if x.isFinite && y.isFinite then
    ofRatio negative (unitsOfMagnitude x.magnitude * unitsOfMagnitude y.magnitude) one
  else if x.magnitude = 0 || y.magnitude = 0 then nan
  else infinity negative

def half (x : Double) : Double :=
  if x.isFinite then ofRatio x.negative (unitsOfMagnitude x.magnitude) 2 else x

/-- The greatest integer at or below a finite number. -/
def floorInt (x : Double) : Int :=
  x.units / (one : Int)

/-- The least integer at or above a finite number. -/
def ceilInt (x : Double) : Int :=
  -((-x.units) / (one : Int))

def floor (x : Double) : Double :=
  if x.isFinite then ofUnits x.negative (x.floorInt * (one : Int)) else x

def ceil (x : Double) : Double :=
  if x.isFinite then ofUnits x.negative (x.ceilInt * (one : Int)) else x

def minInt64 : Int := -0x8000000000000000

def maxInt64 : Int := 0x7fffffffffffffff

/-- A number cut to a signed 64-bit integer: the fraction goes, what is out of range stops at the
nearer end, and what is not a number becomes zero. -/
def toInt64 (x : Double) : Int :=
  if x.isNaN then 0
  else if x.isFinite then
    let cut := Int.tdiv x.units (one : Int)
    if cut < minInt64 then minInt64 else if maxInt64 < cut then maxInt64 else cut
  else if x.negative then minInt64 else maxInt64

end Double

end Specimen
