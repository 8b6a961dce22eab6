import Specimen.Pattern.Tree

/-!
# Searching for a pattern

A tree takes a set of places in a text to the set of places where a match from one of them can end.
A text matches when any place leads anywhere.
-/

namespace Specimen

namespace Pattern

def isWord (ascii : Bool) (c : Option Char) : Bool :=
  match c with
  | some c => (if ascii then Perl.word.ascii else Perl.word.characters).contains c.toNat
  | none => false

/-- Whether a condition holds between two neighbours, of which one is missing at an end. -/
def Look.holds (look : Look) (before after : Option Char) : Bool :=
  match look with
  | .start => before.isNone
  | .stop => after.isNone
  | .startLine => before.isNone || before = some '\n'
  | .endLine => after.isNone || after = some '\n'
  | .startLineCrlf =>
    before.isNone || before = some '\n' || (before = some '\r' && after ≠ some '\n')
  | .endLineCrlf =>
    after.isNone || after = some '\r' || (after = some '\n' && before ≠ some '\r')
  | .word ascii => isWord ascii before != isWord ascii after
  | .notWord ascii => isWord ascii before == isWord ascii after
  | .wordStart ascii => !isWord ascii before && isWord ascii after
  | .wordEnd ascii => isWord ascii before && !isWord ascii after
  | .wordStartHalf ascii => !isWord ascii before
  | .wordEndHalf ascii => !isWord ascii after

/-- A set of places, as one mark for every place of a text and its end. -/
abbrev Places := List Bool

namespace Places

def union : Places → Places → Places
  | a :: as, b :: bs => (a || b) :: union as bs
  | [], bs => bs
  | as, [] => as

def isEmpty (places : Places) : Bool :=
  places.all (!·)

/-- The places after those where a character that passes the test stands. -/
def step (test : Char → Bool) (text : List Char) (places : Places) : Places :=
  false :: (List.zipWith (fun mark c => mark && test c) places text)

/-- The places where a condition holds. -/
def filter (look : Look) (before : Option Char) : List Char → Places → Places
  | c :: rest, mark :: marks =>
    (mark && look.holds before (some c)) :: filter look (some c) rest marks
  | [], [mark] => [mark && look.holds before none]
  | _, _ => []

def iterate (next : Places → Places) : Nat → Places → Places
  | 0, places => places
  | count + 1, places => iterate next count (next places)

/-- The places reached in at most so many steps. -/
def closure (next : Places → Places) : Nat → Places → Places
  | 0, places => places
  | count + 1, places =>
    if isEmpty places then places else union places (closure next count (next places))

end Places

namespace Tree

mutual

/-- The places where a match from one of the given places can end. Repeating more often than there
are places leads nowhere new. -/
def ends (text : List Char) : Tree → Places → Places
  | .empty, places => places
  | .literal chars, places =>
    chars.foldl (fun places c => Places.step (· = c) text places) places
  | .characters set, places => Places.step (fun c => set.contains c.toNat) text places
  | .bytes set, places => Places.step (fun c => set.contains c.toNat) text places
  | .look condition, places => Places.filter condition none text places
  | .repetition min max _ body, places =>
    let limit := text.length + 1
    let reached := Places.iterate (ends text body) (Nat.min min limit) places
    let extra := match max with
      | some max => Nat.min (max - min) limit
      | none => limit
    Places.closure (ends text body) extra reached
  | .capture _ body, places => ends text body places
  | .concat parts, places => endsOfAll text parts places
  | .alternation branches, places => endsOfAny text branches places
termination_by structural tree => tree

def endsOfAll (text : List Char) : List Tree → Places → Places
  | [], places => places
  | tree :: rest, places => endsOfAll text rest (ends text tree places)
termination_by structural trees => trees

def endsOfAny (text : List Char) : List Tree → Places → Places
  | [], _ => []
  | tree :: rest, places => Places.union (ends text tree places) (endsOfAny text rest places)
termination_by structural trees => trees

end

/-- Whether some part of a text matches. -/
def occursIn (tree : Tree) (text : List Char) : Bool :=
  !(Places.isEmpty (tree.ends text (List.replicate (text.length + 1) true)))

end Tree

end Pattern

end Specimen
