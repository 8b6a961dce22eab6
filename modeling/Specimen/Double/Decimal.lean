import Specimen.Double.Arithmetic

/-!
# Decimal notation

Reading rounds the written decimal once. Printing takes the fewest digits that read back, of those
the nearest to the value, and writes them without an exponent.
-/

namespace Specimen

/-- The number `digits * 10 ^ exponent` under a sign. -/
structure Decimal where
  negative : Bool
  digits : Nat
  exponent : Int
  deriving DecidableEq, Repr

namespace Decimal

def digitCount (n : Nat) : Nat :=
  (Nat.toDigits 10 n).length

/-- The double nearest to a decimal. Beyond the bounds on the place of the first digit every
decimal is infinite or zero already. -/
def toDouble (d : Decimal) : Double :=
  let place := d.exponent + (digitCount d.digits : Int)
  if d.digits = 0 || decide (place < -400) then Double.ofMagnitude d.negative 0
  else if 400 < place then Double.infinity d.negative
  else match d.exponent with
    | .ofNat e => Double.ofRatio d.negative (d.digits * Nat.pow 10 e * Double.one) 1
    | .negSucc e => Double.ofRatio d.negative (d.digits * Double.one) (Nat.pow 10 (e + 1))

/-- The weight of a decimal place, as a ratio. -/
def weight (exponent : Int) : Nat × Nat :=
  match exponent with
  | .ofNat e => (Nat.pow 10 e, 1)
  | .negSucc e => (1, Nat.pow 10 (e + 1))

/-- What reads back as one magnitude: the values between `low` and `high`, counted in quarters of a
unit, the ends included when the last binary digit is even. -/
structure Interval where
  value : Nat
  low : Nat
  high : Nat
  closed : Bool

def interval (magnitude : Nat) : Interval :=
  let units := Double.unitsOfMagnitude magnitude
  let exponent := magnitude / Double.fractionCount
  let step := Nat.pow 2 (exponent - 1)
  let below := if magnitude % Double.fractionCount = 0 && decide (1 < exponent) then step else 2 * step
  ⟨4 * units, 4 * units - below, 4 * units + 2 * step, magnitude % 2 = 0⟩

/-- Whether `n / d` quarter units read back as the interval's value. -/
def Interval.contains (i : Interval) (n d : Nat) : Bool :=
  if i.closed then decide (i.low * d ≤ n) && decide (n ≤ i.high * d)
  else decide (i.low * d < n) && decide (n < i.high * d)

/-- The neighbour of the value on the grid `10 ^ exponent` that reads back and lies nearer, the
upper one on a tie. -/
def Interval.onGrid (i : Interval) (exponent : Int) : Option Nat :=
  let (num, den) := weight exponent
  let step := num * 4 * Double.one
  let down := i.value * den / step
  let up := down + 1
  match i.contains (down * step) den, i.contains (up * step) den with
  | true, true => if i.value * den - down * step < up * step - i.value * den then down else up
  | true, false => some down
  | false, true => some up
  | false, false => none

/-- The coarsest grid with a hit, from the place of the first digit downwards. -/
def Interval.search (i : Interval) : Nat → Int → Nat × Int
  | 0, exponent => (0, exponent)
  | fuel + 1, exponent =>
    match i.onGrid exponent with
    | some digits => (digits, exponent)
    | none => i.search fuel (exponent - 1)

/-- The exponent of the first decimal digit of `n / d`, for a positive ratio. -/
def leadingExponent (n d : Nat) : Int :=
  if d ≤ n then (digitCount (n / d) : Int) - 1
  else
    let guess := digitCount (d / n)
    if d ≤ n * Nat.pow 10 (guess - 1) then 1 - (guess : Int) else -(guess : Int)

/-- The shortest decimal of a finite double. -/
def ofDouble (x : Double) : Decimal :=
  if x.magnitude = 0 then ⟨x.negative, 0, 0⟩
  else
    let i := interval x.magnitude
    let (digits, exponent) := i.search 18 (leadingExponent i.value (4 * Double.one))
    ⟨x.negative, digits, exponent⟩

def trimZeros (digits : List Char) : List Char :=
  (digits.reverse.dropWhile (· = '0')).reverse

/-- The digits written out around the point, with no exponent and no trailing zero after the
point. -/
def positional (d : Decimal) : String :=
  let digits := Nat.toDigits 10 d.digits
  let sign := if d.negative then ['-'] else []
  let body := match d.exponent with
    | .ofNat e => if d.digits = 0 then ['0'] else digits ++ List.replicate e '0'
    | .negSucc e =>
      let places := e + 1
      let padded := List.replicate (places + 1 - digits.length) '0' ++ digits
      let cut := padded.length - places
      let after := trimZeros (padded.drop cut)
      padded.take cut ++ (if after = [] then [] else '.' :: after)
  String.ofList (sign ++ body)

end Decimal

namespace Double

/-- The shortest digits that read back, written without an exponent; a whole number has no point. -/
def text (x : Double) : String :=
  if x.isNaN then "NaN"
  else if x.isFinite then (Decimal.ofDouble x).positional
  else if x.negative then "-inf" else "inf"

/-- Like `text`, but a whole number ends in `.0`. -/
def textWithPoint (x : Double) : String :=
  let plain := x.text
  if plain.toList.any (· = '.') then plain else plain ++ ".0"

end Double

end Specimen
