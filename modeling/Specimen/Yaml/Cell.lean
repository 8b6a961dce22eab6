/-!
# Characters in their places

A document is read as cells: characters with the line and the column where they stand. A line break
is one cell, whatever it was written with, and a column counts characters.
-/

namespace Specimen

namespace Yaml

structure Cell where
  char : Char
  /-- The number of characters before it. -/
  offset : Nat
  line : Nat
  column : Nat
  deriving DecidableEq, Repr

/-- The separators of lines and paragraphs end a line too and are kept as they are. -/
def isSeparator (c : Char) : Bool :=
  c = '\u2028' || c = '\u2029'

def isBreak (c : Char) : Bool :=
  c = '\n' || isSeparator c

def isBlank (c : Char) : Bool :=
  c = ' ' || c = '\t'

/-- The characters of names: ASCII letters, digits, the underscore and the hyphen. -/
def isWord (c : Char) : Bool :=
  c.isAlphanum || c = '_' || c = '-'

def isFlowMark (c : Char) : Bool :=
  c = ',' || c = '[' || c = ']' || c = '{' || c = '}'

/-- Control characters, apart from those that blank or break a line, stand in no document. -/
def isAllowed (c : Char) : Bool :=
  c = '\t' || c = '\n' || c = '\r' || c = '\u0085' ||
    (decide (' ' ≤ c) && decide (c ≤ '~')) ||
    (decide ('\u00a0' ≤ c) && !(c = '\ufffe' || c = '\uffff'))

namespace Cell

/-- The cells of a text from the given place on. A carriage return, a line feed, both in this order
and the next-line character all become a line feed. -/
def cellsFrom (offset line column : Nat) : List Char → List Cell
  | '\r' :: '\n' :: rest =>
    ⟨'\n', offset, line, column⟩ :: cellsFrom (offset + 2) (line + 1) 0 rest
  | c :: rest =>
    if c = '\r' || c = '\n' || c = '\u0085' then
      ⟨'\n', offset, line, column⟩ :: cellsFrom (offset + 1) (line + 1) 0 rest
    else if isSeparator c then
      ⟨c, offset, line, column⟩ :: cellsFrom (offset + 1) (line + 1) 0 rest
    else ⟨c, offset, line, column⟩ :: cellsFrom (offset + 1) line (column + 1) rest
  | [] => []

/-- The cells of a text whose characters are all allowed. A byte order mark at its start is left
out, but keeps its column. -/
def ofText? (text : String) : Option (List Cell) :=
  let chars := text.toList
  if chars.all isAllowed then
    match cellsFrom 0 0 0 chars with
    | [] => some []
    | cell :: rest => some (if cell.char = '\ufeff' then rest else cell :: rest)
  else none

end Cell

/-- Whether a blank, a line break or the end of the text comes next. -/
def atBlank : List Cell → Bool
  | [] => true
  | cell :: _ => isBlank cell.char || isBreak cell.char

/-- Whether a line begins with three times the mark and nothing else in that word. -/
def atTriple (mark : Char) : List Cell → Bool
  | a :: b :: c :: rest =>
    decide (a.column = 0) && a.char = mark && b.char = mark && c.char = mark && atBlank rest
  | _ => false

/-- Whether a document begins or ends here. -/
def atDocumentMark (cells : List Cell) : Bool :=
  atTriple '-' cells || atTriple '.' cells

def charsOf (cells : List Cell) : List Char :=
  cells.map Cell.char

end Yaml

end Specimen
