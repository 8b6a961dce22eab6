import Specimen.Pattern.CharSet

/-!
# Patterns as they are written

The expression that a pattern's text spells, before flags are applied and anything is simplified.
-/

namespace Specimen

namespace Pattern

/-- A flag that a group or a bare flag list can set or clear. -/
inductive Flag where
  | caseInsensitive
  | multiLine
  | dotAll
  | swapGreed
  | unicode
  | crlf
  | verbose
  deriving DecidableEq, Repr

/-- A condition on a place in a text. -/
inductive Assertion where
  | startLine
  | endLine
  | startText
  | endText
  | wordBoundary
  | notWordBoundary
  | wordStart
  | wordEnd
  | wordStartHalf
  | wordEndHalf
  deriving DecidableEq, Repr

inductive ClassOp where
  | intersection
  | difference
  | symmetricDifference
  deriving DecidableEq, Repr

/-- A character as it is written; `asByte` marks an escape that names a single byte. -/
structure Letter where
  char : Char
  asByte : Bool
  deriving DecidableEq, Repr

inductive ClassExpr where
  | letter (letter : Letter)
  | range (low high : Letter)
  | named (set : CharSet) (negated : Bool)
  | perl (kind : Perl) (negated : Bool)
  | property (set : CharSet) (negated : Bool)
  | bracket (negated : Bool) (body : ClassExpr)
  | union (items : List ClassExpr)
  | op (kind : ClassOp) (left right : ClassExpr)

inductive Expr where
  | empty
  | flags (settings : List (Flag × Bool))
  | letter (letter : Letter)
  | dot
  | assertion (assertion : Assertion)
  | perl (kind : Perl) (negated : Bool)
  | property (set : CharSet) (negated : Bool)
  | bracket (negated : Bool) (body : ClassExpr)
  | repetition (min : Nat) (max : Option Nat) (greedy : Bool) (body : Expr)
  | capture (index : Nat) (body : Expr)
  | group (settings : List (Flag × Bool)) (body : Expr)
  | concat (parts : List Expr)
  | alternation (branches : List Expr)

namespace Expr

/-- Parts one after the other; a single part stands for itself. -/
def ofParts : List Expr → Expr
  | [] => .empty
  | [part] => part
  | parts => .concat parts

def ofBranches : List Expr → Expr
  | [branch] => branch
  | branches => .alternation branches

/-- Whether an expression may be repeated: a flag list and nothing at all may not. -/
def isRepeatable : Expr → Bool
  | .empty => false
  | .flags _ => false
  | _ => true

end Expr

end Pattern

end Specimen
