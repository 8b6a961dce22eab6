import Specimen.Pattern.Table

/-!
# Sets of characters

A set is a sorted list of closed ranges of code points that neither overlap nor touch. Two
alphabets are in use: all characters, whose neighbours skip the surrogate gap, and single bytes.
-/

namespace Specimen

namespace Pattern

abbrev CharSet := List (Nat × Nat)

/-- The code points a set is taken from, with the neighbours of each. -/
structure Alphabet where
  top : Nat
  next : Nat → Nat
  previous : Nat → Nat

namespace Alphabet

def characters : Alphabet where
  top := 0x10ffff
  next n := if n = 0xd7ff then 0xe000 else n + 1
  previous n := if n = 0xe000 then 0xd7ff else n - 1

def bytes : Alphabet where
  top := 0xff
  next n := n + 1
  previous n := n - 1

end Alphabet

namespace CharSet

def contains (set : CharSet) (n : Nat) : Bool :=
  set.any fun range => decide (range.1 ≤ n) && decide (n ≤ range.2)

/-- The number of code points from one to another, both included. -/
def width (range : Nat × Nat) : Nat :=
  range.2 - range.1 + 1

def size (set : CharSet) : Nat :=
  set.foldr (fun range total => width range + total) 0

/-- The code point with the given number in a set, if the set has so many. A number that falls on a
surrogate stands for the first code point of its range. -/
def nth? : CharSet → Nat → Option Char
  | [], _ => none
  | range :: rest, offset =>
    if offset < width range then
      let code := range.1 + offset
      if 0xd800 ≤ code ∧ code < 0xe000 then some (Char.ofNat range.1) else some (Char.ofNat code)
    else nth? rest (offset - width range)

/-- Joins ranges that overlap or touch, in a list sorted by lower ends. -/
def joinFrom (current : Nat × Nat) : List (Nat × Nat) → CharSet
  | [] => [current]
  | range :: rest =>
    if range.1 ≤ current.2 + 1 then joinFrom (current.1, Nat.max current.2 range.2) rest
    else current :: joinFrom range rest

/-- The set that any list of ranges stands for. -/
def ofRanges (ranges : List (Nat × Nat)) : CharSet :=
  match ranges.mergeSort (fun a b => decide (a.1 ≤ b.1)) with
  | [] => []
  | range :: rest => joinFrom range rest

def union (a b : CharSet) : CharSet :=
  ofRanges (a ++ b)

def intersection (a b : CharSet) : CharSet :=
  ofRanges (a.flatMap fun x => b.filterMap fun y =>
    let low := Nat.max x.1 y.1
    let high := Nat.min x.2 y.2
    if low ≤ high then some (low, high) else none)

/-- What is left of a range when another is taken away. -/
def cut (alphabet : Alphabet) (range removed : Nat × Nat) : List (Nat × Nat) :=
  if range.2 < removed.1 ∨ removed.2 < range.1 then [range]
  else
    (if range.1 < removed.1 then [(range.1, alphabet.previous removed.1)] else []) ++
    (if removed.2 < range.2 then [(alphabet.next removed.2, range.2)] else [])

def difference (alphabet : Alphabet) (a b : CharSet) : CharSet :=
  b.foldl (fun left range => left.flatMap fun other => cut alphabet other range) a

def symmetricDifference (alphabet : Alphabet) (a b : CharSet) : CharSet :=
  difference alphabet (union a b) (intersection a b)

/-- The gaps after a range, up to the top. Two ranges with nothing but surrogates between them, which
do not touch, leave a gap whose ends are out of order and change places. -/
def gapsAfter (alphabet : Alphabet) (high : Nat) : CharSet → CharSet
  | [] => if high < alphabet.top then [(alphabet.next high, alphabet.top)] else []
  | range :: rest =>
    let low := alphabet.next high
    let previous := alphabet.previous range.1
    (Nat.min low previous, Nat.max low previous) :: gapsAfter alphabet range.2 rest

def complement (alphabet : Alphabet) : CharSet → CharSet
  | [] => [(0, alphabet.top)]
  | range :: rest =>
    (if 0 < range.1 then [(0, alphabet.previous range.1)] else []) ++
      gapsAfter alphabet range.2 rest

def isAscii (set : CharSet) : Bool :=
  set.all fun range => decide (range.2 < 0x80)

end CharSet

/-- The kinds of characters with a one-letter escape. -/
inductive Perl where
  | digit
  | space
  | word
  deriving DecidableEq, Repr

namespace Perl

def characters : Perl → CharSet
  | .digit => digitRanges
  | .space => spaceRanges
  | .word => wordRanges

def ascii : Perl → CharSet
  | .digit => [(0x30, 0x39)]
  | .space => [(0x9, 0xd), (0x20, 0x20)]
  | .word => [(0x30, 0x39), (0x41, 0x5a), (0x5f, 0x5f), (0x61, 0x7a)]

end Perl

/-- The named classes of ASCII characters. -/
def asciiClass? : String → Option CharSet
  | "alnum" => some [(0x30, 0x39), (0x41, 0x5a), (0x61, 0x7a)]
  | "alpha" => some [(0x41, 0x5a), (0x61, 0x7a)]
  | "ascii" => some [(0x0, 0x7f)]
  | "blank" => some [(0x9, 0x9), (0x20, 0x20)]
  | "cntrl" => some [(0x0, 0x1f), (0x7f, 0x7f)]
  | "digit" => some [(0x30, 0x39)]
  | "graph" => some [(0x21, 0x7e)]
  | "lower" => some [(0x61, 0x7a)]
  | "print" => some [(0x20, 0x7e)]
  | "punct" => some [(0x21, 0x2f), (0x3a, 0x40), (0x5b, 0x60), (0x7b, 0x7e)]
  | "space" => some [(0x9, 0xd), (0x20, 0x20)]
  | "upper" => some [(0x41, 0x5a)]
  | "word" => some [(0x30, 0x39), (0x41, 0x5a), (0x5f, 0x5f), (0x61, 0x7a)]
  | "xdigit" => some [(0x30, 0x39), (0x41, 0x46), (0x61, 0x66)]
  | _ => none

end Pattern

end Specimen
