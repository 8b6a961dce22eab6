import Specimen.Pattern.Tree
import Specimen.Random.Draw

/-!
# Drawing texts from a pattern

A walk through the tree picks a member of every set, a branch of every alternation and a count for
every repetition. Conditions on places give no text.
-/

namespace Specimen

namespace Pattern

/-- How many repetitions beyond the least an unbounded one may have. -/
def extraRepetitions : Nat := 8

/-- The greatest count of repetitions. -/
def maxCount : Nat := 0xffffffff

/-- The greatest count to draw for a repetition. -/
def countLimit (min : Nat) (max : Option Nat) : Nat :=
  max.getD (Nat.min (min + extraRepetitions) maxCount)

/-- A member of a set of characters, and nothing when it has none. -/
def drawCharacter (set : CharSet) : Draw (List Char) := do
  if set.size = 0 then return []
  else return (set.nth? (← Draw.below64 set.size)).toList

/-- A member of a set of bytes; a byte that is no character by itself gives a question mark. -/
def drawByte (set : CharSet) : Draw (List Char) := do
  if set.size = 0 then return []
  else
    let c := set.nth? (← Draw.below32 set.size)
    return (c.map fun c => if c.toNat < 0x80 then c else '?').toList

namespace Tree

mutual

def emit : Tree → Draw (List Char)
  | .empty => pure []
  | .literal text => pure text
  | .characters set => drawCharacter set
  | .bytes set => drawByte set
  | .look _ => pure []
  | .repetition min max _ body => do
    let count := min + (← Draw.below32 (countLimit min max - min + 1))
    return (← Draw.times (emit body) count).flatten
  | .capture _ body => emit body
  | .concat parts => emitAll parts
  | .alternation branches => do emitAt branches (← Draw.below64 branches.length)
termination_by structural tree => tree

def emitAll : List Tree → Draw (List Char)
  | [] => pure []
  | tree :: rest => do
    let text ← emit tree
    return text ++ (← emitAll rest)
termination_by structural trees => trees

/-- The text of one of several branches. -/
def emitAt : List Tree → Nat → Draw (List Char)
  | [], _ => pure []
  | tree :: _, 0 => emit tree
  | _ :: rest, place + 1 => emitAt rest place
termination_by structural trees => trees

end

end Tree

end Pattern

end Specimen
