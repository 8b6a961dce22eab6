import Specimen.Pattern.Expr
import Specimen.Pattern.Fold
import Specimen.Pattern.Tree

/-!
# What a pattern means

Flags are applied from left to right: a bare list of flags holds to the end of its group. Under the
byte flag an expression must still match characters alone, so a set of bytes stays inside ASCII.
-/

namespace Specimen

namespace Pattern

structure Flags where
  caseInsensitive : Bool
  multiLine : Bool
  dotAll : Bool
  swapGreed : Bool
  unicode : Bool
  crlf : Bool
  deriving DecidableEq, Repr

namespace Flags

def standard : Flags := ⟨false, false, false, false, true, false⟩

def apply (flags : Flags) (setting : Flag × Bool) : Flags :=
  match setting.1 with
  | .caseInsensitive => { flags with caseInsensitive := setting.2 }
  | .multiLine => { flags with multiLine := setting.2 }
  | .dotAll => { flags with dotAll := setting.2 }
  | .swapGreed => { flags with swapGreed := setting.2 }
  | .unicode => { flags with unicode := setting.2 }
  | .crlf => { flags with crlf := setting.2 }
  | .verbose => flags

def applyAll (flags : Flags) (settings : List (Flag × Bool)) : Flags :=
  settings.foldl apply flags

def alphabet (flags : Flags) : Alphabet :=
  if flags.unicode then .characters else .bytes

/-- The set as the flags see it, with both cases if case does not count. -/
def fold (flags : Flags) (set : CharSet) : CharSet :=
  if !flags.caseInsensitive then set
  else if flags.unicode then set.foldClosure
  else set.foldAscii

/-- A set with cases added and then, if asked for, complemented. A set of bytes must be ASCII. -/
def finish (flags : Flags) (negated : Bool) (set : CharSet) : Option CharSet :=
  let folded := flags.fold set
  let set := if negated then folded.complement flags.alphabet else folded
  if flags.unicode || set.isAscii then some set else none

def ofSet (flags : Flags) (set : CharSet) : Tree :=
  if flags.unicode then Tree.ofCharacters set else Tree.ofBytes set

/-- A kind of characters is closed under case already. -/
def perl (flags : Flags) (kind : Perl) (negated : Bool) : Option CharSet :=
  let set := if flags.unicode then kind.characters else kind.ascii
  let set := if negated then set.complement flags.alphabet else set
  if flags.unicode || set.isAscii then some set else none

/-- The code point of a letter in a class; a class of bytes holds ASCII only. -/
def classCode (flags : Flags) (letter : Letter) : Option Nat :=
  if flags.unicode || decide (letter.char.toNat < 0x80) then some letter.char.toNat else none

def ofChar (flags : Flags) (c : Char) : Tree :=
  let set := flags.fold [(c.toNat, c.toNat)]
  if set = [(c.toNat, c.toNat)] then .literal [c] else flags.ofSet set

/-- A letter, or a set when case does not count. A byte outside ASCII is no character. -/
def ofLetter (flags : Flags) (letter : Letter) : Option Tree :=
  if !flags.unicode && letter.asByte && decide (0x80 ≤ letter.char.toNat) then none
  else some (flags.ofChar letter.char)

/-- Every character, or every one that does not end a line. -/
def dot (flags : Flags) : Option Tree :=
  if !flags.unicode then none
  else if flags.dotAll then some (.characters [(0, 0x10ffff)])
  else if flags.crlf then some (.characters [(0, 9), (0xb, 0xc), (0xe, 0x10ffff)])
  else some (.characters [(0, 9), (0xb, 0x10ffff)])

def look (flags : Flags) : Assertion → Look
  | .startLine =>
    if flags.multiLine then (if flags.crlf then .startLineCrlf else .startLine) else .start
  | .endLine => if flags.multiLine then (if flags.crlf then .endLineCrlf else .endLine) else .stop
  | .startText => .start
  | .endText => .stop
  | .wordBoundary => .word (!flags.unicode)
  | .notWordBoundary => .notWord (!flags.unicode)
  | .wordStart => .wordStart (!flags.unicode)
  | .wordEnd => .wordEnd (!flags.unicode)
  | .wordStartHalf => .wordStartHalf (!flags.unicode)
  | .wordEndHalf => .wordEndHalf (!flags.unicode)

end Flags

namespace ClassExpr

mutual

/-- The set a class body stands for, under fixed flags. -/
def set? (flags : Flags) : ClassExpr → Option CharSet
  | .letter written => do
    let code ← flags.classCode written
    return [(code, code)]
  | .range low high => do
    return [(← flags.classCode low, ← flags.classCode high)]
  | .named set negated => flags.finish negated set
  | .perl kind negated => flags.perl kind negated
  | .property set negated => if flags.unicode then flags.finish negated set else none
  | .bracket negated body => do flags.finish negated (← set? flags body)
  | .union items => unionOf? flags items
  | .op kind left right => do
    let left := flags.fold (← set? flags left)
    let right := flags.fold (← set? flags right)
    match kind with
    | .intersection => return CharSet.intersection left right
    | .difference => return CharSet.difference flags.alphabet left right
    | .symmetricDifference => return CharSet.symmetricDifference flags.alphabet left right
termination_by structural expr => expr

def unionOf? (flags : Flags) : List ClassExpr → Option CharSet
  | [] => some []
  | item :: rest => do return CharSet.union (← set? flags item) (← unionOf? flags rest)
termination_by structural items => items

end

end ClassExpr

namespace Expr

mutual

/-- The tree of an expression and the flags after it. -/
def tree? (flags : Flags) : Expr → Option (Tree × Flags)
  | .empty => some (.empty, flags)
  | .flags settings => some (.empty, flags.applyAll settings)
  | .letter written => do return (← flags.ofLetter written, flags)
  | .dot => do return (← flags.dot, flags)
  | .assertion condition => some (.look (flags.look condition), flags)
  | .perl kind negated => do return (flags.ofSet (← flags.perl kind negated), flags)
  | .property set negated =>
    if flags.unicode then do return (flags.ofSet (← flags.finish negated set), flags) else none
  | .bracket negated body => do
    return (flags.ofSet (← flags.finish negated (← body.set? flags)), flags)
  | .repetition min max greedy body => do
    let (tree, flags) ← tree? flags body
    return (Tree.ofRepetition min max (greedy != flags.swapGreed) tree, flags)
  | .capture index body => do
    let (tree, _) ← tree? flags body
    return (.capture index tree, flags)
  | .group settings body => do
    let (tree, _) ← tree? (flags.applyAll settings) body
    return (tree, flags)
  | .concat parts => do
    let (trees, flags) ← trees? flags parts
    return (Tree.ofParts trees, flags)
  | .alternation branches => do
    let (trees, flags) ← trees? flags branches
    return (Tree.ofBranches trees, flags)
termination_by structural expr => expr

def trees? (flags : Flags) : List Expr → Option (List Tree × Flags)
  | [] => some ([], flags)
  | expr :: rest => do
    let (tree, flags) ← tree? flags expr
    let (trees, flags) ← trees? flags rest
    return (tree :: trees, flags)
termination_by structural exprs => exprs

end

end Expr

end Pattern

end Specimen
