import Specimen.Yaml.Token

/-!
# Layout

Indentation and brackets give a document its structure. A key is only known as one by the colon
behind it, so every place where one may begin is kept as a candidate until the colon comes; the key
and, where it is the first at its column, the mapping then begin in front of the candidate.
-/

namespace Specimen

namespace Yaml

/-- A place where a key may have begun. It is given up at the end of its line and beyond 1024
characters, and must turn out a key where nothing else can stand. -/
structure Candidate where
  /-- The number of tokens before it. -/
  place : Nat
  offset : Nat
  line : Nat
  column : Nat
  required : Bool
  deriving DecidableEq, Repr

structure Layout where
  /-- The tokens so far, the last first. -/
  tokens : List Token
  /-- The columns of the open block collections, the innermost first. -/
  columns : List Nat
  /-- The candidate of the level the place is at. -/
  candidate : Option Candidate
  /-- The candidates of the levels outside of each open bracket, the innermost first. -/
  outer : List (Option Candidate)
  /-- Whether a key may begin at this place. -/
  keyAllowed : Bool
  deriving DecidableEq, Repr

namespace Layout

def start : Layout :=
  ⟨[], [], none, [], true⟩

def inFlow (layout : Layout) : Bool :=
  !layout.outer.isEmpty

/-- The least column of what stands inside of the innermost block collection. -/
def margin (layout : Layout) : Nat :=
  match layout.columns with
  | [] => 0
  | column :: _ => column + 1

def emit (layout : Layout) (token : Token) : Layout :=
  { layout with tokens := token :: layout.tokens }

def allowKey (layout : Layout) (allowed : Bool) : Layout :=
  { layout with keyAllowed := allowed }

/-- Puts a token where `place` tokens come before it. -/
def insert (layout : Layout) (place : Nat) (token : Token) : Layout :=
  let later := layout.tokens.length - place
  { layout with tokens := layout.tokens.take later ++ token :: layout.tokens.drop later }

/-- Begins a block collection at a column further in than those that are open. -/
def openBlock (layout : Layout) (column place : Nat) (token : Token) : Layout :=
  if !layout.inFlow && decide (layout.margin ≤ column) then
    { layout.insert place token with columns := column :: layout.columns }
  else layout

def openBlockHere (layout : Layout) (column : Nat) (token : Token) : Layout :=
  layout.openBlock column layout.tokens.length token

/-- Ends the block collections whose column is not below the limit. -/
def closeColumns (limit : Nat) : List Nat → List Token → List Nat × List Token
  | [], tokens => ([], tokens)
  | column :: rest, tokens =>
    if limit ≤ column then closeColumns limit rest (.blockEnd :: tokens)
    else (column :: rest, tokens)

def closeBlocks (layout : Layout) (limit : Nat) : Layout :=
  if layout.inFlow then layout
  else
    let (columns, tokens) := closeColumns limit layout.columns layout.tokens
    { layout with columns := columns, tokens := tokens }

/-- Gives up a candidate that the place has left behind. -/
def expireCandidate (cell : Cell) : Option Candidate → Option (Option Candidate)
  | none => some none
  | some candidate =>
    if candidate.line < cell.line ∨ candidate.offset + 1024 < cell.offset then
      if candidate.required then none else some none
    else some (some candidate)

def expire (layout : Layout) (cell : Cell) : Option Layout := do
  let candidate ← expireCandidate cell layout.candidate
  let outer ← layout.outer.mapM (expireCandidate cell)
  return { layout with candidate := candidate, outer := outer }

/-- Gives up the candidate of this level. -/
def forget (layout : Layout) : Option Layout :=
  match layout.candidate with
  | none => some layout
  | some candidate => if candidate.required then none else some { layout with candidate := none }

/-- Takes a place as the candidate of its level, if a key may begin there. -/
def propose (layout : Layout) (cell : Cell) : Option Layout :=
  if layout.keyAllowed then do
    let required := !layout.inFlow && decide (layout.margin = cell.column + 1)
    let candidate : Candidate :=
      ⟨layout.tokens.length, cell.offset, cell.line, cell.column, required⟩
    return { ← layout.forget with candidate := some candidate }
  else some layout

def openBracket (layout : Layout) (cell : Cell) (token : Token) : Option Layout := do
  let layout ← layout.propose cell
  return { layout.emit token with
    candidate := none, outer := layout.candidate :: layout.outer, keyAllowed := true }

def closeBracket (layout : Layout) (token : Token) : Option Layout := do
  let layout ← layout.forget
  let (candidate, outer) := match layout.outer with
    | [] => (layout.candidate, [])
    | candidate :: outer => (candidate, outer)
  return { layout.emit token with candidate := candidate, outer := outer, keyAllowed := false }

/-- The hyphen of an element. -/
def element (layout : Layout) (cell : Cell) : Option Layout := do
  if !layout.inFlow && !layout.keyAllowed then none
  else
    let layout ← (layout.openBlockHere cell.column .blockSequence).forget
    return (layout.allowKey true).emit .element

/-- The question mark of a key of any kind. -/
def explicitKey (layout : Layout) (cell : Cell) : Option Layout := do
  if !layout.inFlow && !layout.keyAllowed then none
  else
    let layout ← (layout.openBlockHere cell.column .blockMapping).forget
    return (layout.allowKey (!layout.inFlow)).emit .key

/-- The colon before a value, which makes the candidate a key if there is one. -/
def value (layout : Layout) (cell : Cell) : Option Layout :=
  match layout.candidate with
  | some candidate =>
    let layout := layout.insert candidate.place .key
    let layout := layout.openBlock candidate.column candidate.place .blockMapping
    some (({ layout with candidate := none }.allowKey false).emit .value)
  | none =>
    if !layout.inFlow && !layout.keyAllowed then none
    else
      let layout := layout.openBlockHere cell.column .blockMapping
      some ((layout.allowKey (!layout.inFlow)).emit .value)

/-- A token that ends all block collections and is followed by no key on its line. -/
def documentToken (layout : Layout) (token : Token) : Option Layout := do
  let layout ← (layout.closeBlocks 0).forget
  return (layout.allowKey false).emit token

/-- A token that may begin a key. -/
def keyToken (layout : Layout) (cell : Cell) (token : Token) : Option Layout := do
  return ((← layout.propose cell).allowKey false).emit token

/-- Skips blanks, comments and line breaks. Outside of brackets a key may begin on a new line, and a
tab may not stand where a key may begin. -/
def skipGap (flow comment allowed : Bool) : List Cell → Bool × List Cell
  | [] => (allowed, [])
  | cell :: rest =>
    if isBreak cell.char then skipGap flow false (allowed || !flow) rest
    else if comment then skipGap flow true allowed rest
    else if cell.char = ' ' || (cell.char = '\t' && (flow || !allowed)) then
      skipGap flow false allowed rest
    else if cell.char = '#' then skipGap flow true allowed rest
    else (allowed, cell :: rest)

/-- Characters that mean something at the beginning of a token. -/
def isIndicator (c : Char) : Bool :=
  isFlowMark c || ['-', '?', ':', '#', '&', '*', '!', '|', '>', '\'', '"', '%', '@',
    '\x60'].contains c

/-- Whether a plain scalar begins with a character; some marks begin one if no blank follows. -/
def startsPlain (flow : Bool) (c : Char) (rest : List Cell) : Bool :=
  !(isBlank c || isBreak c || isIndicator c) ||
    (!atBlank rest && (c = '-' || (!flow && (c = '?' || c = ':'))))

def text (chars : List Char) : String :=
  String.ofList chars.reverse

/-- Reads the token that begins at a cell. -/
def token (layout : Layout) (cell : Cell) (rest : List Cell) : Option (Layout × List Cell) :=
  let flow := layout.inFlow
  if cell.column = 0 ∧ cell.char = '%' then do
    let (directive, rest) ← directive? rest
    return (← layout.documentToken directive, rest)
  else if atTriple '-' (cell :: rest) then do
    return (← layout.documentToken .documentStart, rest.drop 2)
  else if atTriple '.' (cell :: rest) then do
    return (← layout.documentToken .documentEnd, rest.drop 2)
  else match cell.char with
    | '[' => do return (← layout.openBracket cell .flowSequence, rest)
    | '{' => do return (← layout.openBracket cell .flowMapping, rest)
    | ']' => do return (← layout.closeBracket .flowSequenceEnd, rest)
    | '}' => do return (← layout.closeBracket .flowMappingEnd, rest)
    | ',' => do return (((← layout.forget).allowKey true).emit .comma, rest)
    | '*' => do
      let (name, rest) ← anchorName? rest
      return (← layout.keyToken cell (.alias name), rest)
    | '&' => do
      let (name, rest) ← anchorName? rest
      return (← layout.keyToken cell (.anchor name), rest)
    | '!' => do
      let (tag, rest) ← tag? flow rest
      return (← layout.keyToken cell tag, rest)
    | '\'' => do
      let (chars, rest) ← quoted true Gap.none [] rest
      return (← layout.keyToken cell (.scalar .quoted (text chars)), rest)
    | '"' => do
      let (chars, rest) ← quoted false Gap.none [] rest
      return (← layout.keyToken cell (.scalar .quoted (text chars)), rest)
    | c =>
      if c = '-' ∧ atBlank rest then do return (← layout.element cell, rest)
      else if c = '?' ∧ (flow || atBlank rest) then do return (← layout.explicitKey cell, rest)
      else if c = ':' ∧ (flow || atBlank rest) then do return (← layout.value cell, rest)
      else if (c = '|' ∨ c = '>') ∧ !flow then do
        let (chars, rest) ← blockScalar (c = '|') layout.margin rest
        let style := if c = '|' then Style.literal else .folded
        return (((← layout.forget).allowKey true).emit (.scalar style (text chars)), rest)
      else if startsPlain flow c rest then do
        let (chars, broken, rest) ← plain flow layout.margin Gap.none [] (cell :: rest)
        let layout ← layout.keyToken cell (.scalar .plain (text chars))
        return (layout.allowKey broken, rest)
      else none

/-- Reads all tokens of a document; `fuel` bounds their number. -/
def scan : Nat → Layout → List Cell → Option (List Token)
  | 0, _, _ => none
  | fuel + 1, layout, cells =>
    match skipGap layout.inFlow false layout.keyAllowed cells with
    | (_, []) => do return ((← layout.forget).closeBlocks 0).tokens.reverse
    | (allowed, cell :: rest) => do
      let layout ← (layout.allowKey allowed).expire cell
      let (layout, rest) ← (layout.closeBlocks (cell.column + 1)).token cell rest
      scan fuel layout rest

end Layout

/-- The tokens of a text; every token but the ends of collections takes a character or more. -/
def tokens? (text : String) : Option (List Token) := do
  let cells ← Cell.ofText? text
  Layout.scan (cells.length + 1) Layout.start cells

end Yaml

end Specimen
