import Specimen.Random.Draw
import Specimen.Text.Digits
import Specimen.Text.Split

/-!
# Internet addresses

Addresses of 32 bits are written as four decimal bytes, those of 128 bits as eight hexadecimal
groups of which the longest run of zeros is left out.
-/

namespace Specimen

namespace Address

/-- The four bytes of an address, the highest first. -/
def octets (address : Nat) : List Nat :=
  [address / 0x1000000 % 0x100, address / 0x10000 % 0x100, address / 0x100 % 0x100,
    address % 0x100]

def decimal (n : Nat) : List Char :=
  Nat.toDigits 10 n

def joinWith (mark : Char) (parts : List (List Char)) : List Char :=
  [mark].intercalate parts

def text4 (address : Nat) : List Char :=
  joinWith '.' ((octets address).map decimal)

/-- The eight groups of an address, the highest first. -/
def groups (address : Nat) : List Nat :=
  (List.range 8).map fun i => address / Nat.pow 2 (16 * (7 - i)) % 0x10000

def ofGroups (groups : List Nat) : Nat :=
  groups.foldl (fun address group => address * 0x10000 + group) 0

/-- A run of zeros: its first place and its length. -/
structure Run where
  start : Nat
  length : Nat
  deriving DecidableEq, Repr

/-- The longest run of zeros, the first one of several; `current` ends at the place before. -/
def longestRun (place : Nat) (current longest : Run) : List Nat → Run
  | [] => longest
  | group :: rest =>
    if group = 0 then
      let current : Run := if current.length = 0 then ⟨place, 1⟩ else ⟨current.start, current.length + 1⟩
      longestRun (place + 1) current (if longest.length < current.length then current else longest) rest
    else longestRun (place + 1) ⟨0, 0⟩ longest rest

def groupsText (groups : List Nat) : List Char :=
  joinWith ':' (groups.map Text.hexadecimal)

/-- The text of 128 bits. An address that stands for one of 32 bits shows it, and else a run of at
least two zero groups is written as two colons. -/
def text6 (address : Nat) : List Char :=
  if address / 0x100000000 = 0xffff then [':', ':', 'f', 'f', 'f', 'f', ':'] ++ text4 address
  else
    let all := groups address
    let run := longestRun 0 ⟨0, 0⟩ ⟨0, 0⟩ all
    if 1 < run.length then
      groupsText (all.take run.start) ++ ':' :: ':' :: groupsText (all.drop (run.start + run.length))
    else groupsText all

def drawAddress4 : Draw Nat :=
  Draw.word32

/-- The low half is drawn first. -/
def drawAddress6 : Draw Nat := do
  let low ← Draw.word64
  return (← Draw.word64) * 0x10000000000000000 + low

/-- A number at the start of a text: all the digits there, which may not be more than `most`. -/
def number? (base most : Nat) (cs : List Char) : Option (Nat × List Char) :=
  let digits := cs.takeWhile fun c => (Text.digit? base c).isSome
  if digits = [] ∨ most < digits.length then none
  else (Text.digits? base digits).map fun n => (n, cs.drop digits.length)

/-- A byte in decimal, without zeros before it. -/
def octet? (cs : List Char) : Option (Nat × List Char) := do
  let (n, rest) ← number? 10 3 cs
  if 255 < n ∨ (cs.head? = some '0' ∧ rest.length + 1 < cs.length) then none else some (n, rest)

/-- An address of 32 bits at the start of a text. -/
def address4? (cs : List Char) : Option (Nat × List Char) := do
  let (a, cs) ← octet? cs
  let (b, cs) ← octet? (← Text.mark? '.' cs)
  let (c, cs) ← octet? (← Text.mark? '.' cs)
  let (d, cs) ← octet? (← Text.mark? '.' cs)
  return (a * 0x1000000 + b * 0x10000 + c * 0x100 + d, cs)

def read4? (cs : List Char) : Option Nat :=
  match address4? cs with
  | some (address, []) => some address
  | _ => none

/-- The text after the colon that comes before every group but the first. -/
def afterColon? (first : Bool) (cs : List Char) : Option (List Char) :=
  if first then some cs else Text.mark? ':' cs

/-- Up to `room` groups at the start of a text, with the text after them. An address of 32 bits
counts as the last two, which the flag says. -/
def readGroups (first : Bool) : Nat → List Char → List Nat × Bool × List Char
  | 0, cs => ([], false, cs)
  | room + 1, cs =>
    match (if 0 < room then (afterColon? first cs).bind address4? else none) with
    | some (address, rest) => ([address / 0x10000, address % 0x10000], true, rest)
    | none =>
      match (afterColon? first cs).bind (number? 16 4) with
      | some (group, rest) =>
        let (groups, dotted, rest) := readGroups false room rest
        (group :: groups, dotted, rest)
      | none => ([], false, cs)

/-- Reads 128 bits: eight groups, or fewer around two colons that stand for at least one group. -/
def read6? (cs : List Char) : Option Nat :=
  let (head, dotted, rest) := readGroups true 8 cs
  if head.length = 8 then (if rest = [] then some (ofGroups head) else none)
  else if dotted then none
  else match rest with
    | ':' :: ':' :: rest =>
      let (tail, _, rest) := readGroups true (7 - head.length) rest
      if rest = [] then
        some (ofGroups (head ++ List.replicate (8 - head.length - tail.length) 0 ++ tail))
      else none
    | _ => none

end Address

end Specimen
