import Specimen.Text.Digits
import Specimen.Yaml.Cell

/-!
# Plain and quoted scalars

Both kinds run over several lines, and what stands between two of their words is folded: one line
break becomes a space, and of several the first is dropped. Texts that are being read are kept with
the last character first.
-/

namespace Specimen

namespace Yaml

/-- What stands between two words, last character first. -/
inductive Gap where
  /-- Blanks inside a line. -/
  | blanks (chars : List Char)
  /-- A line break and those after it; blanks around them do not count. -/
  | breaks (first : Char) (others : List Char)
  /-- The breaks that follow one that was escaped. -/
  | joined (others : List Char)
  deriving DecidableEq, Repr

namespace Gap

def none : Gap :=
  .blanks []

def isNone (gap : Gap) : Bool :=
  gap = none

def isBroken : Gap → Bool
  | .blanks _ => false
  | _ => true

/-- The gap with one more blank or line break. -/
def push (c : Char) : Gap → Gap
  | .blanks chars => if isBreak c then .breaks c [] else .blanks (c :: chars)
  | .breaks first others => .breaks first (if isBreak c then c :: others else others)
  | .joined others => .joined (if isBreak c then c :: others else others)

/-- What a gap is read as. -/
def folded : Gap → List Char
  | .blanks chars => chars
  | .breaks '\n' [] => [' ']
  | .breaks '\n' others => others
  | .breaks first others => others ++ [first]
  | .joined others => others

end Gap

/-- Whether a colon ends a plain scalar, or a mark does inside brackets. -/
def endsPlain (flow : Bool) (c : Char) (rest : List Cell) : Bool :=
  (c = ':' && atBlank rest) || (flow && isFlowMark c)

/-- Inside brackets a colon may not stand right before a mark. -/
def misplacedColon (flow : Bool) (c : Char) (rest : List Cell) : Bool :=
  flow && c = ':' && match rest with
    | next :: _ => isFlowMark next.char || next.char = '?'
    | [] => false

/-- Reads a plain scalar, whose later lines are indented to `margin` outside of brackets. The other
results are whether line breaks follow it, and what comes after them. -/
def plain (flow : Bool) (margin : Nat) (gap : Gap) (done : List Char) :
    List Cell → Option (List Char × Bool × List Cell)
  | [] => some (done, gap.isBroken, [])
  | cell :: rest =>
    if isBlank cell.char || isBreak cell.char then
      if gap.isBroken && cell.char = '\t' && decide (cell.column < margin) then none
      else plain flow margin (gap.push cell.char) done rest
    else if !gap.isNone && (atDocumentMark (cell :: rest) || cell.char = '#' ||
        (!flow && decide (cell.column < margin))) then
      some (done, gap.isBroken, cell :: rest)
    else if misplacedColon flow cell.char rest then none
    else if endsPlain flow cell.char rest then some (done, gap.isBroken, cell :: rest)
    else plain flow margin Gap.none (cell.char :: (gap.folded ++ done)) rest

/-- What follows a backslash: a letter for a character, or for the number of hexadecimal digits
that give its code. -/
inductive Escape where
  | char (code : Char)
  | hex (count : Nat)
  deriving DecidableEq, Repr

def escape? : Char → Option Escape
  | '0' => some (.char '\x00')
  | 'a' => some (.char '\x07')
  | 'b' => some (.char '\x08')
  | 't' => some (.char '\t')
  | '\t' => some (.char '\t')
  | 'n' => some (.char '\n')
  | 'v' => some (.char '\x0b')
  | 'f' => some (.char '\x0c')
  | 'r' => some (.char '\r')
  | 'e' => some (.char '\x1b')
  | ' ' => some (.char ' ')
  | '"' => some (.char '"')
  | '/' => some (.char '/')
  | '\\' => some (.char '\\')
  | 'N' => some (.char '\u0085')
  | '_' => some (.char '\u00a0')
  | 'L' => some (.char '\u2028')
  | 'P' => some (.char '\u2029')
  | 'x' => some (.hex 2)
  | 'u' => some (.hex 4)
  | 'U' => some (.hex 8)
  | _ => none

/-- The character of a code written with exactly so many hexadecimal digits. -/
def codeChar? (count : Nat) (cells : List Cell) : Option Char := do
  let digits := charsOf (cells.take count)
  if digits.length = count then
    let code ← Text.digits? 16 digits
    if Nat.isValidChar code then return Char.ofNat code else none
  else none

/-- Reads a quoted scalar from behind its opening quote to behind its closing one. Between single
quotes only the quote itself is special, and stands for itself when written twice. -/
def quoted (single : Bool) (gap : Gap) (done : List Char) (cells : List Cell) :
    Option (List Char × List Cell) :=
  match cells with
  | [] => none
  | cell :: rest =>
    let text := gap.folded ++ done
    if atDocumentMark (cell :: rest) then none
    else if isBlank cell.char || isBreak cell.char then
      quoted single (gap.push cell.char) done rest
    else if cell.char = (if single then '\'' else '"') then
      match rest with
      | next :: others =>
        if single && next.char = '\'' then quoted single Gap.none ('\'' :: text) others
        else some (text, next :: others)
      | [] => some (text, [])
    else if !single && cell.char = '\\' then
      match rest with
      | next :: others =>
        if isBreak next.char then quoted single (.joined []) text others
        else
          match escape? next.char with
          | some (.char c) => quoted single Gap.none (c :: text) others
          | some (.hex count) =>
            match codeChar? count others with
            | some c => quoted single Gap.none (c :: text) (others.drop count)
            | none => none
          | none => none
      | [] => none
    else quoted single Gap.none (cell.char :: text) rest
termination_by cells.length
decreasing_by all_goals simp only [List.length_cons, List.length_drop]; omega

end Yaml

end Specimen
