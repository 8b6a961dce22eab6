import Specimen.Pattern.CharSet

/-!
# Pattern trees

The simplified form of a pattern, in which texts are drawn and searched for. The smart constructors
keep it simple: no empty parts and no adjacent literals in a concatenation, no single-character
sets, no alternation of sets and none whose branches start alike.
-/

namespace Specimen

namespace Pattern

/-- A condition on a place in a text, with the flags applied. -/
inductive Look where
  | start
  | stop
  | startLine
  | endLine
  | startLineCrlf
  | endLineCrlf
  | word (ascii : Bool)
  | notWord (ascii : Bool)
  | wordStart (ascii : Bool)
  | wordEnd (ascii : Bool)
  | wordStartHalf (ascii : Bool)
  | wordEndHalf (ascii : Bool)
  deriving DecidableEq, Repr

inductive Tree where
  | empty
  | literal (text : List Char)
  | characters (set : CharSet)
  /-- A set of single bytes. -/
  | bytes (set : CharSet)
  | look (look : Look)
  | repetition (min : Nat) (max : Option Nat) (greedy : Bool) (body : Tree)
  | capture (index : Nat) (body : Tree)
  | concat (parts : List Tree)
  | alternation (branches : List Tree)

namespace Tree

mutual

def equal : Tree → Tree → Bool
  | .empty, .empty => true
  | .literal a, .literal b => a == b
  | .characters a, .characters b => a == b
  | .bytes a, .bytes b => a == b
  | .look a, .look b => a == b
  | .repetition min max greedy body, .repetition min' max' greedy' body' =>
    min == min' && max == max' && greedy == greedy' && equal body body'
  | .capture index body, .capture index' body' => index == index' && equal body body'
  | .concat parts, .concat parts' => equalAll parts parts'
  | .alternation branches, .alternation branches' => equalAll branches branches'
  | _, _ => false
termination_by structural tree => tree

def equalAll : List Tree → List Tree → Bool
  | [], [] => true
  | tree :: rest, tree' :: rest' => equal tree tree' && equalAll rest rest'
  | _, _ => false
termination_by structural trees => trees

end

mutual

/-- The number of nodes. -/
def size : Tree → Nat
  | .repetition _ _ _ body => 1 + size body
  | .capture _ body => 1 + size body
  | .concat parts => 1 + sizeAll parts
  | .alternation branches => 1 + sizeAll branches
  | _ => 1
termination_by structural tree => tree

def sizeAll : List Tree → Nat
  | [] => 0
  | tree :: rest => size tree + sizeAll rest
termination_by structural trees => trees

end

mutual

/-- Whether the tree can match, and nothing but the empty text. -/
def matchesOnlyEmpty : Tree → Bool
  | .empty => true
  | .look _ => true
  | .repetition _ _ _ body => matchesOnlyEmpty body
  | .capture _ body => matchesOnlyEmpty body
  | .concat parts => allMatchOnlyEmpty parts
  | .alternation branches => allMatchOnlyEmpty branches
  | _ => false
termination_by structural tree => tree

def allMatchOnlyEmpty : List Tree → Bool
  | [] => true
  | tree :: rest => matchesOnlyEmpty tree && allMatchOnlyEmpty rest
termination_by structural trees => trees

end

/-- What matches nothing: a set without members. -/
def never : Tree := .bytes []

/-- A set of characters; one member alone is a literal. -/
def ofCharacters : CharSet → Tree
  | [] => never
  | [(low, high)] => if low = high then .literal [Char.ofNat low] else .characters [(low, high)]
  | set => .characters set

/-- A set of bytes; one member alone is a literal. -/
def ofBytes : CharSet → Tree
  | [] => never
  | [(low, high)] => if low = high then .literal [Char.ofNat low] else .bytes [(low, high)]
  | set => .bytes set

/-- A repetition. What matches only the empty text need not come twice, no repetition is empty, and
a single one is its body. -/
def ofRepetition (min : Nat) (max : Option Nat) (greedy : Bool) (body : Tree) : Tree :=
  let (min, max) :=
    if body.matchesOnlyEmpty then (Nat.min min 1, some (Nat.min (max.getD 1) 1)) else (min, max)
  match min, max with
  | 0, some 0 => .empty
  | 1, some 1 => body
  | min, max => .repetition min max greedy body

/-- The parts that a tree adds to a concatenation. -/
def spread : Tree → List Tree
  | .empty => []
  | .concat parts => parts
  | tree => [tree]

/-- Joins literals that stand next to each other. -/
def joinLiterals : List Tree → List Tree
  | [] => []
  | .literal text :: rest =>
    match joinLiterals rest with
    | .literal other :: rest => .literal (text ++ other) :: rest
    | rest => .literal text :: rest
  | tree :: rest => tree :: joinLiterals rest

def ofParts (parts : List Tree) : Tree :=
  match joinLiterals (parts.flatMap spread) with
  | [] => .empty
  | [tree] => tree
  | parts => .concat parts

/-- The branches that a tree adds to an alternation. -/
def fan : Tree → List Tree
  | .alternation branches => branches
  | tree => [tree]

def singleChar? : Tree → Option Char
  | .literal [c] => some c
  | _ => none

/-- The set that a tree is, for one of characters or of ASCII bytes. -/
def set? : Tree → Option CharSet
  | .characters set => some set
  | .bytes set => if set.isAscii then some set else none
  | _ => none

def parts? : Tree → Option (List Tree)
  | .concat parts => some parts
  | _ => none

/-- The number of parts with which two lists start alike. -/
def commonLength : List Tree → List Tree → Nat
  | a :: as, b :: bs => if equal a b then commonLength as bs + 1 else 0
  | _, _ => 0

/-- The number of parts with which all branches start alike, if all of them are concatenations. -/
def commonStart (branches : List Tree) : Nat :=
  match branches.mapM parts? with
  | some (first :: others) =>
    others.foldl (fun count parts => commonLength (first.take count) parts) first.length
  | _ => 0

/-- An alternation. Characters and sets become one set; a common start is taken out of all
branches, and what is left of them simplified again. -/
def alternate : Nat → List Tree → Tree
  | 0, branches => .alternation branches
  | fuel + 1, branches =>
    let branches := branches.flatMap fan
    match branches with
    | [] => never
    | [tree] => tree
    | _ =>
      match branches.mapM singleChar? with
      | some chars => ofCharacters (CharSet.ofRanges (chars.map fun c => (c.toNat, c.toNat)))
      | none =>
        match branches.mapM set? with
        | some sets => ofCharacters (CharSet.ofRanges sets.flatten)
        | none =>
          let count := commonStart branches
          match branches.head?.bind parts? with
          | some first =>
            if count = 0 then .alternation branches
            else
              let rests := branches.map fun branch => ofParts ((branch.parts?.getD []).drop count)
              ofParts (first.take count ++ [alternate fuel rests])
          | none => .alternation branches

def ofBranches (branches : List Tree) : Tree :=
  alternate (sizeAll branches + 1) branches

end Tree

end Pattern

end Specimen
