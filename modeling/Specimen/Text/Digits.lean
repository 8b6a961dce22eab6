/-!
# Digits

Numbers as they are written in digits of a base up to sixteen. The letters among the digits may be
of either case.
-/

namespace Specimen

namespace Text

/-- The value of a digit of a base. -/
def digit? (base : Nat) (c : Char) : Option Nat :=
  let value :=
    if '0' ≤ c ∧ c ≤ '9' then c.toNat - 48
    else if 'a' ≤ c ∧ c ≤ 'f' then c.toNat - 87
    else if 'A' ≤ c ∧ c ≤ 'F' then c.toNat - 55
    else base
  if value < base then some value else none

def hexadecimal (n : Nat) : List Char :=
  Nat.toDigits 16 n

/-- The value of digits of a base; no digits at all are zero. -/
def digits? (base : Nat) (cs : List Char) : Option Nat :=
  cs.foldlM (fun n c => (digit? base c).map (n * base + ·)) 0

/-- The value of characters that are all decimal digits. -/
def decimalValue (cs : List Char) : Nat :=
  cs.foldl (fun n c => n * 10 + (c.toNat - 48)) 0

/-- An unsigned number as it may be written: decimal digits, with an optional plus sign before
them. -/
def natural? (cs : List Char) : Option Nat :=
  let digits := match cs with
    | '+' :: rest => rest
    | cs => cs
  if digits ≠ [] ∧ digits.all Char.isDigit then some (decimalValue digits) else none

/-- A decimal number with an optional sign. -/
def signedValue : List Char → Int
  | '-' :: digits => -(decimalValue digits : Int)
  | '+' :: digits => decimalValue digits
  | digits => decimalValue digits

end Text

end Specimen
