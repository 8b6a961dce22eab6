import Specimen.Random.Source
import Specimen.Double.Arithmetic

/-!
# Draws

Every draw takes words from a source and gives a value and the source after it. Draws from a range
take words until one is acceptable; a range is never left, whatever the words are.
-/

namespace Specimen

abbrev Draw (α : Type) := StateM Source α

namespace Draw

def word64 : Draw Nat := fun s =>
  let (word, s) := s.next64
  (word.toNat, s)

def word32 : Draw Nat := fun s =>
  let (word, s) := s.next32
  (word.toNat, s)

/-- Takes words until `accept` gives a value, and the fallback when the words are used up. -/
def search {α : Type} (word : Draw Nat) (accept : Nat → Option α) (fallback : α) : Nat → Draw α
  | 0 => pure fallback
  | attempts + 1 => do
    match accept (← word) with
    | some value => pure value
    | none => search word accept fallback attempts

/-- Takes words until one is accepted, at most as many as the patience allows. -/
def untilAccepted {α : Type} (word : Draw Nat) (accept : Nat → Option α) (fallback : α) : Draw α :=
  fun s => search word accept fallback s.patience s

/-- Scales a word of the given width to a number below `range`. Words whose product has a low part
above the zone are turned down, so that all numbers are equally frequent. -/
def scale (width range word : Nat) : Option Nat :=
  let zone := range * Nat.pow 2 (width - Double.bitLength range) - 1
  let product := word * range
  if product % Nat.pow 2 width ≤ zone then some (product / Nat.pow 2 width) else none

/-- A number below `range`, from 64-bit words. -/
def below64 (range : Nat) : Draw Nat :=
  untilAccepted word64 (scale 64 range) 0

/-- A number below `range`, from 32-bit words. -/
def below32 (range : Nat) : Draw Nat :=
  untilAccepted word32 (scale 32 range) 0

/-- A number from `low` to `high`, both included. -/
def natBetween (low high : Nat) : Draw Nat := do
  return low + (← below64 (high - low + 1))

/-- An integer from `low` to `high`, both included and inside 64 bits with a sign. Among all such
integers a word stands for the one of the same bits. -/
def intBetween (low high : Int) : Draw Int := do
  let offset ← below64 (high - low + 1).toNat
  return if high - low + 1 = 0x10000000000000000 then Int.bmod offset 0x10000000000000000
    else low + (offset : Int)

def bool : Draw Bool := do
  return decide ((← word64) < Double.signWeight)

/-- A double from `low` on and below `high`, for a finite distance. -/
def doubleBetween (low high : Double) : Draw Double :=
  let distance := high.sub low
  untilAccepted word64 (fun word =>
    let x := ((Double.ofBinary (word / 0x1000) 52).mul distance).add low
    if x.lt high then some x else none) low

/-- A double from zero on and below one, in steps of `1 / 2 ^ 53`. -/
def unitDouble : Draw Double := do
  return Double.ofBinary ((← word64) / 0x800) 53

/-- A member of a list, or the fallback when it has none. -/
def choose {α : Type} (values : List α) (fallback : α) : Draw α := do
  return values.getD (← below32 values.length) fallback

/-- An ASCII letter or digit: the 62 of them are numbered with capitals first and digits last. -/
def alphanumeric : Draw Char :=
  untilAccepted word32 (fun word =>
    let i := word / 0x4000000
    if i < 26 then some (Char.ofNat (65 + i))
    else if i < 52 then some (Char.ofNat (97 + (i - 26)))
    else if i < 62 then some (Char.ofNat (48 + (i - 52)))
    else none) 'A'

/-- As many independent draws as asked for, in order. -/
def times {α : Type} (draw : Draw α) : Nat → Draw (List α)
  | 0 => pure []
  | count + 1 => do
    let first ← draw
    return first :: (← times draw count)

end Draw

end Specimen
