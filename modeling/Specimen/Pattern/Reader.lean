import Specimen.Pattern.Expr
import Specimen.Text.Digits

/-!
# Reading patterns

A reader consumes a pattern from the left. In verbose mode blanks and comments between the parts of
a pattern do not count.
-/

namespace Specimen

namespace Pattern

structure Cursor where
  rest : List Char
  verbose : Bool
  captures : Nat
  names : List (List Char)

abbrev Reader := StateT Cursor Option

namespace Reader

def isSpace (c : Char) : Bool :=
  CharSet.contains spaceRanges c.toNat

/-- The text from the first character that is neither blank nor part of a comment. -/
def dropBlanks (inComment : Bool) : List Char → List Char
  | [] => []
  | c :: rest =>
    if inComment then dropBlanks (c ≠ '\n') rest
    else if isSpace c then dropBlanks false rest
    else if c = '#' then dropBlanks true rest
    else c :: rest

def fail {α : Type} : Reader α := fun _ => none

def peek : Reader (Option Char) := do
  return (← get).rest.head?

def skip (count : Nat) : Reader Unit :=
  modify fun cursor => { cursor with rest := cursor.rest.drop count }

def skipBlanks : Reader Unit :=
  modify fun cursor =>
    if cursor.verbose then { cursor with rest := dropBlanks false cursor.rest } else cursor

/-- Moves past one character and the blanks after it. -/
def advance : Reader Unit := do
  skip 1
  skipBlanks

/-- The current character; at the end of the pattern there is none, which is an error. -/
def current : Reader Char := do
  match ← peek with
  | some c => return c
  | none => fail

/-- Moves past a text if the pattern goes on with it. -/
def accept (text : List Char) : Reader Bool := do
  if text.isPrefixOf (← get).rest then
    skip text.length
    return true
  else return false

/-- Takes characters while they pass a test, with the blanks between them left out. -/
def takeWhile (test : Char → Bool) : Nat → Reader (List Char)
  | 0 => return []
  | fuel + 1 => do
    match ← peek with
    | some c =>
      if test c then
        advance
        return c :: (← takeWhile test fuel)
      else return []
    | none => return []

/-- As much fuel as a walk over the rest of the pattern can use. -/
def remaining : Reader Nat := do
  return (← get).rest.length + 1

/-- The character of a code point; surrogates and numbers past the last one have none. -/
def charOf? (code : Nat) : Option Char :=
  if code < 0xd800 ∨ (0xe000 ≤ code ∧ code < 0x110000) then some (Char.ofNat code) else none

def hexChar (digits : List Char) : Reader Char :=
  match (Text.digits? 16 digits).bind charOf? with
  | some c => return c
  | none => fail

/-- As many hexadecimal digits as asked for. -/
def hexDigits : Nat → Reader (List Char)
  | 0 => return []
  | count + 1 => do
    let c ← current
    if (Text.digit? 16 c).isNone then fail
    advance
    return c :: (← hexDigits count)

/-- The rest of an escape that names a character by its code: a fixed number of digits, or any
number of them in braces. An escape of two digits names a byte. -/
def hexEscape (digits : Nat) : Reader Letter := do
  advance
  if (← current) = '{' then
    advance
    let body ← takeWhile (· ≠ '}') (← remaining)
    let _ ← current
    advance
    if body = [] then fail
    return ⟨← hexChar body, false⟩
  else
    let c ← hexChar (← hexDigits digits)
    return ⟨c, digits = 2 && decide (c.toNat ≤ 0xff)⟩

/-- The sets that can be named as a property, under their names without case, blanks and marks. -/
def namedProperty? (name : List Char) : Option CharSet :=
  let plain := (name.filter fun c => c ≠ ' ' && c ≠ '_' && c ≠ '-').map Char.toLower
  match String.ofList plain with
  | "any" => some [(0, 0x10ffff)]
  | "ascii" => some [(0, 0x7f)]
  | "nd" | "decimalnumber" | "digit" => some digitRanges
  | "whitespace" | "wspace" | "space" => some spaceRanges
  | _ => none

def property (negated : Bool) : Reader Expr := do
  advance
  let name ←
    if (← current) = '{' then do
      advance
      let body ← takeWhile (· ≠ '}') (← remaining)
      let _ ← current
      skip 1
      pure body
    else do
      let c ← current
      advance
      pure [c]
  match namedProperty? name with
  | some set => return .property set negated
  | none => fail

def isMeta (c : Char) : Bool :=
  ['\\', '.', '+', '*', '?', '(', ')', '|', '[', ']', '{', '}', '^', '$', '#', '&', '-', '~'].contains c

/-- Whether a backslash before a character gives that character. -/
def isEscapable (c : Char) : Bool :=
  isMeta c || (decide (c.toNat < 0x80) && !c.isAlphanum && c ≠ '<' && c ≠ '>')

def boundaryNamed? (name : List Char) : Option Assertion :=
  match String.ofList name with
  | "start" => some .wordStart
  | "end" => some .wordEnd
  | "start-half" => some .wordStartHalf
  | "end-half" => some .wordEndHalf
  | _ => none

def isBoundaryChar (c : Char) : Bool :=
  c.isAlpha || c = '-'

/-- A word boundary, which may name its side in braces. Braces that hold no name are left for a
repetition. -/
def boundary : Reader Expr := do
  if (← peek) ≠ some '{' then return .assertion .wordBoundary
  let before ← get
  advance
  if !isBoundaryChar (← current) then
    set before
    return .assertion .wordBoundary
  let name ← takeWhile isBoundaryChar (← remaining)
  if (← current) ≠ '}' then fail
  skip 1
  match boundaryNamed? name with
  | some assertion => return .assertion assertion
  | none => fail

def plain (c : Char) : Expr :=
  .letter ⟨c, false⟩

/-- An escape, from its backslash on. -/
def escape : Reader Expr := do
  skip 1
  let c ← current
  match c with
  | 'x' => return .letter (← hexEscape 2)
  | 'u' => return .letter (← hexEscape 4)
  | 'U' => return .letter (← hexEscape 8)
  | 'p' => property false
  | 'P' => property true
  | _ =>
    skip 1
    match c with
    | 'd' => return .perl .digit false
    | 'D' => return .perl .digit true
    | 's' => return .perl .space false
    | 'S' => return .perl .space true
    | 'w' => return .perl .word false
    | 'W' => return .perl .word true
    | 'a' => return plain '\x07'
    | 'f' => return plain '\x0c'
    | 't' => return plain '\t'
    | 'n' => return plain '\n'
    | 'r' => return plain '\r'
    | 'v' => return plain '\x0b'
    | 'A' => return .assertion .startText
    | 'z' => return .assertion .endText
    | 'b' => boundary
    | 'B' => return .assertion .notWordBoundary
    | '<' => return .assertion .wordStart
    | '>' => return .assertion .wordEnd
    | _ => if isEscapable c then return plain c else fail

/-- The character after the current one, with blanks and the mark of a comment passed over in
verbose mode. -/
def peekNext : Reader (Option Char) := do
  let cursor ← get
  let rest := cursor.rest.drop 1
  if cursor.verbose then
    match rest.dropWhile isSpace with
    | '#' :: rest => return (rest.dropWhile isSpace).head?
    | rest => return rest.head?
  else return rest.head?

/-- A named class of ASCII characters, from its colon on, and what follows it. -/
def asciiName? (cs : List Char) : Option (CharSet × Bool × List Char) := do
  let ':' :: rest := cs | none
  let (negated, rest) := match rest with
    | '^' :: rest => (true, rest)
    | rest => (false, rest)
  let name := rest.takeWhile (· ≠ ':')
  let ':' :: ']' :: after := rest.drop name.length | none
  return (← asciiClass? (String.ofList name), negated, after)

/-- What may stand in brackets, of what a class item can spell. -/
def classItem : Expr → Reader ClassExpr
  | .letter letter => return .letter letter
  | .perl kind negated => return .perl kind negated
  | .property set negated => return .property set negated
  | _ => fail

def classEnd : Expr → Reader Letter
  | .letter letter => return letter
  | _ => fail

def classPrimitive : Reader Expr := do
  let c ← current
  if c = '\\' then escape
  else
    skip 1
    return plain c

/-- One item of a class: a character, a kind of characters or a range. A hyphen before a closing
bracket or before another hyphen starts no range. -/
def classRange : Reader ClassExpr := do
  let first ← classPrimitive
  skipBlanks
  let c ← current
  let next ← peekNext
  if c ≠ '-' || next = some ']' || next = some '-' then classItem first
  else
    advance
    let last ← classPrimitive
    let low ← classEnd first
    let high ← classEnd last
    if low.char ≤ high.char then return .range low high else fail

def classUnion : List ClassExpr → ClassExpr
  | [item] => item
  | items => .union items.reverse

def combine (left : Option (ClassOp × ClassExpr)) (items : List ClassExpr) : ClassExpr :=
  match left with
  | some (op, left) => .op op left (classUnion items)
  | none => classUnion items

/-- The hyphens a class starts with stand for themselves. -/
def leadingHyphens : Nat → Reader (List ClassExpr)
  | 0 => return []
  | fuel + 1 => do
    if (← current) = '-' then
      advance
      return .letter ⟨'-', false⟩ :: (← leadingHyphens fuel)
    else return []

/-- The start of a class, from its bracket on: whether it is negated, and the characters that stand
for themselves only there. -/
def classOpen : Reader (Bool × List ClassExpr) := do
  advance
  let negated := (← current) = '^'
  if negated then advance
  let hyphens ← leadingHyphens (← remaining)
  if hyphens = [] && (← current) = ']' then
    advance
    let _ ← current
    return (negated, [.letter ⟨']', false⟩])
  else return (negated, hyphens)

def classOp? : List Char → Option ClassOp
  | '&' :: '&' :: _ => some .intersection
  | '-' :: '-' :: _ => some .difference
  | '~' :: '~' :: _ => some .symmetricDifference
  | _ => none

/-- The body of a class up to and with its closing bracket; `items` are read already, in reverse.
Operators are all of one strength and group to the left. -/
def classBody : Nat → Option (ClassOp × ClassExpr) → List ClassExpr → Reader ClassExpr
  | 0, _, _ => fail
  | fuel + 1, left, items => do
    skipBlanks
    let c ← current
    let rest := (← get).rest
    match classOp? rest with
    | some op =>
      skip 2
      classBody fuel (some (op, combine left items)) []
    | none =>
      if c = '[' then
        match asciiName? (rest.drop 1) with
        | some (set, negated, after) =>
          modify fun cursor => { cursor with rest := after }
          classBody fuel left (.named set negated :: items)
        | none =>
          let (negated, first) ← classOpen
          let body ← classBody fuel none first
          classBody fuel left (.bracket negated body :: items)
      else if c = ']' then
        skip 1
        return combine left items
      else
        let item ← classRange
        classBody fuel left (item :: items)

def bracket : Reader Expr := do
  let (negated, first) ← classOpen
  return .bracket negated (← classBody (← remaining) none first)

/-- A decimal number below two to the 32nd, with blanks around it. -/
def decimal : Reader Nat := do
  modify fun cursor => { cursor with rest := cursor.rest.dropWhile isSpace }
  let digits ← takeWhile Char.isDigit (← remaining)
  let _ ← takeWhile isSpace (← remaining)
  let value := Text.decimalValue digits
  if digits ≠ [] ∧ value < 0x100000000 then return value else fail

/-- The counts of a repetition, from its brace on. -/
def counts : Reader (Nat × Option Nat) := do
  advance
  let min ← decimal
  let max ←
    if (← current) = ',' then do
      advance
      if (← current) = '}' then pure none
      else pure (some (← decimal))
    else pure (some min)
  if (← current) ≠ '}' then fail
  if max.any (· < min) then fail
  return (min, max)

def flagNamed? : Char → Option Flag
  | 'i' => some .caseInsensitive
  | 'm' => some .multiLine
  | 's' => some .dotAll
  | 'U' => some .swapGreed
  | 'u' => some .unicode
  | 'R' => some .crlf
  | 'x' => some .verbose
  | _ => none

/-- A list of flags up to a colon or a closing parenthesis. No flag may come twice, and a minus sign
only once and not last. -/
def flagSettings (negated dangling : Bool) (seen : List (Flag × Bool)) :
    List Char → Option (List (Flag × Bool) × List Char)
  | [] => none
  | c :: rest =>
    if c = ':' || c = ')' then if dangling then none else some (seen.reverse, c :: rest)
    else if c = '-' then if negated then none else flagSettings true true seen rest
    else match flagNamed? c with
      | some flag =>
        if seen.any (·.1 = flag) then none
        else flagSettings negated false ((flag, !negated) :: seen) rest
      | none => none

def isNameStart (c : Char) : Bool :=
  c = '_' || c.isAlpha || (decide (0x80 ≤ c.toNat) && CharSet.contains wordRanges c.toNat &&
    !CharSet.contains digitRanges c.toNat)

def isNameChar (c : Char) : Bool :=
  isNameStart c || c.isDigit || c = '.' || c = '[' || c = ']' ||
    (decide (0x80 ≤ c.toNat) && CharSet.contains wordRanges c.toNat)

/-- The name of a group up to and with its closing angle bracket; no two groups share one. -/
def groupName : Reader Unit := do
  let cursor ← get
  let name := cursor.rest.takeWhile (· ≠ '>')
  let valid := match name with
    | [] => false
    | c :: others => isNameStart c && others.all isNameChar
  if !valid || cursor.names.contains name then fail
  let '>' :: rest := cursor.rest.drop name.length | fail
  set { cursor with rest := rest, names := name :: cursor.names }

def verboseSetting (settings : List (Flag × Bool)) : Option Bool :=
  (settings.find? (·.1 = .verbose)).map Prod.snd

/-- What a parenthesis opens. -/
inductive Opening where
  | flags (settings : List (Flag × Bool))
  | capture (index : Nat)
  | group (settings : List (Flag × Bool))

def newCapture : Reader Opening := do
  let cursor ← get
  set { cursor with captures := cursor.captures + 1 }
  return .capture (cursor.captures + 1)

/-- The start of a group, from its parenthesis on. Groups that look around are not supported, and an
empty list of flags is none. -/
def groupOpen : Reader Opening := do
  advance
  let rest := (← get).rest
  if ["?=", "?!", "?<=", "?<!"].any fun mark => mark.toList.isPrefixOf rest then fail
  if (← accept "?P<".toList) || (← accept "?<".toList) then
    let opening ← newCapture
    groupName
    return opening
  else if ← accept ['?'] then
    match flagSettings false false [] (← get).rest with
    | some (settings, c :: rest) =>
      modify fun cursor => { cursor with rest := rest }
      if c = ')' then
        if settings = [] then fail
        return .flags settings
      else return .group settings
    | _ => fail
  else newCapture

/-- Puts a repetition around the last part read. -/
def repeatLast (min : Nat) (max : Option Nat) (parts : List Expr) : Reader (List Expr) := do
  match parts with
  | last :: others =>
    if !last.isRepeatable then fail
    let lazy' ← accept ['?']
    return .repetition min max (!lazy') last :: others
  | [] => fail

def primitive : Reader Expr := do
  let c ← current
  if c = '\\' then escape
  else
    skip 1
    match c with
    | '.' => return .dot
    | '^' => return .assertion .startLine
    | '$' => return .assertion .endLine
    | c => return plain c

/-- An alternation up to the end of its group: `parts` are the parts of the current branch read so
far and `branches` the branches before it, both in reverse. -/
def alternation : Nat → List Expr → List Expr → Reader Expr
  | 0, _, _ => fail
  | fuel + 1, parts, branches => do
    skipBlanks
    match ← peek with
    | none => return Expr.ofBranches (Expr.ofParts parts.reverse :: branches).reverse
    | some ')' => return Expr.ofBranches (Expr.ofParts parts.reverse :: branches).reverse
    | some '|' =>
      skip 1
      alternation fuel [] (Expr.ofParts parts.reverse :: branches)
    | some '(' =>
      match ← groupOpen with
      | .flags settings =>
        match verboseSetting settings with
        | some verbose => modify fun cursor => { cursor with verbose := verbose }
        | none => pure ()
        alternation fuel (.flags settings :: parts) branches
      | .capture index =>
        let body ← groupBody fuel []
        alternation fuel (.capture index body :: parts) branches
      | .group settings =>
        let body ← groupBody fuel settings
        alternation fuel (.group settings body :: parts) branches
    | some '[' =>
      let item ← bracket
      alternation fuel (item :: parts) branches
    | some '?' =>
      skip 1
      alternation fuel (← repeatLast 0 (some 1) parts) branches
    | some '*' =>
      skip 1
      alternation fuel (← repeatLast 0 none parts) branches
    | some '+' =>
      skip 1
      alternation fuel (← repeatLast 1 none parts) branches
    | some '{' =>
      if parts = [] then fail
      let (min, max) ← counts
      advance
      alternation fuel (← repeatLast min max parts) branches
    | some _ =>
      let item ← primitive
      alternation fuel (item :: parts) branches
where
  /-- The body of a group and its closing parenthesis; blanks count again as before the group. -/
  groupBody (fuel : Nat) (settings : List (Flag × Bool)) : Reader Expr := do
    let verbose := (← get).verbose
    modify fun cursor => { cursor with verbose := (verboseSetting settings).getD verbose }
    let body ← alternation fuel [] []
    if (← peek) ≠ some ')' then fail
    skip 1
    modify fun cursor => { cursor with verbose := verbose }
    return body

end Reader

/-- Reads a whole pattern. -/
def Expr.ofText? (text : String) : Option Expr := do
  let cs := text.toList
  let (expr, cursor) ← (Reader.alternation (cs.length + 1) [] []).run ⟨cs, false, 0, []⟩
  if cursor.rest = [] then some expr else none

end Pattern

end Specimen
