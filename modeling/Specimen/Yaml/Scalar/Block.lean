import Specimen.Yaml.Cell

/-!
# Block scalars

The text of a block scalar is the lines below its header that are indented far enough, without that
indentation. In a folded one a single line break between two lines that do not begin with a blank
becomes a space. Texts that are being read are kept with the last character first.
-/

namespace Specimen

namespace Yaml

/-- What becomes of the line breaks at the end. -/
inductive Chomp where
  | strip
  | clip
  | keep
  deriving DecidableEq, Repr

def chomp? : Char → Option Chomp
  | '-' => some .strip
  | '+' => some .keep
  | _ => none

/-- One digit, not zero, that says how far the text is indented; `none` at another character, and
failure at a zero. -/
def indentDigit? (c : Char) : Option (Option Nat) :=
  if c = '0' then none
  else if c.isDigit then some (some (c.toNat - 48))
  else some none

/-- What a header says about the end and the indentation, in either order, and the cells after
that. -/
def blockIndicators (cells : List Cell) : Option (Chomp × Option Nat × List Cell) :=
  match cells with
  | [] => some (.clip, none, [])
  | first :: rest =>
    match chomp? first.char with
    | some chomp =>
      match rest with
      | [] => some (chomp, none, [])
      | second :: others => do
        match ← indentDigit? second.char with
        | some indent => return (chomp, some indent, others)
        | none => return (chomp, none, second :: others)
    | none => do
      match ← indentDigit? first.char with
      | some indent =>
        match rest with
        | [] => return (.clip, some indent, [])
        | second :: others =>
          match chomp? second.char with
          | some chomp => return (chomp, some indent, others)
          | none => return (.clip, some indent, second :: others)
      | none => return (.clip, none, first :: rest)

/-- What follows the blanks and the comment at the end of a line; nothing else may stand there. -/
def restOfLine? (cells : List Cell) : Option (List Cell) :=
  match afterComment (cells.dropWhile fun cell => isBlank cell.char) with
  | [] => some []
  | cell :: rest => if isBreak cell.char then some rest else none
where
  afterComment : List Cell → List Cell
    | [] => []
    | cell :: rest =>
      if cell.char = '#' then rest.dropWhile fun cell => !isBreak cell.char else cell :: rest

/-- The column of the first line with text, or that of a longer line of spaces before it. A tab may
not stand in front of the text. -/
def textColumn (column : Nat) : List Cell → Option Nat
  | [] => some column
  | cell :: rest =>
    if cell.char = ' ' then textColumn (Nat.max column (cell.column + 1)) rest
    else if cell.char = '\t' then none
    else if isBreak cell.char then textColumn column rest
    else some column

/-- What has been read of a block scalar: its text, the line break behind that and those of the empty
lines after it. -/
structure BlockText where
  text : List Char
  lineBreak : List Char
  emptyLines : List Char
  deriving DecidableEq, Repr

namespace BlockText

/-- Begins a line with its first character. `afterBlank` says that the line before began with a
blank. -/
def beginLine (block : BlockText) (literal afterBlank : Bool) (c : Char) : BlockText :=
  let between :=
    if !literal && block.lineBreak = ['\n'] && !afterBlank && !isBlank c then
      if block.emptyLines = [] then [' '] else block.emptyLines
    else block.emptyLines ++ block.lineBreak
  ⟨c :: (between ++ block.text), [], []⟩

def chomped (block : BlockText) : Chomp → List Char
  | .strip => block.text
  | .clip => block.lineBreak ++ block.text
  | .keep => block.emptyLines ++ (block.lineBreak ++ block.text)

end BlockText

/-- Reads the lines indented to a column. `inLine` says whether the place is inside of a line, and
`blank` whether that line, or else the one before, began with a blank. -/
def blockLines (literal : Bool) (indent : Nat) (inLine blank : Bool) (block : BlockText) :
    List Cell → Option (BlockText × List Cell)
  | [] => some (block, [])
  | cell :: rest =>
    if inLine then
      if isBreak cell.char then
        blockLines literal indent false blank { block with lineBreak := [cell.char] } rest
      else
        blockLines literal indent true blank { block with text := cell.char :: block.text } rest
    else if cell.char = ' ' && decide (cell.column < indent) then
      blockLines literal indent false blank block rest
    else if cell.char = '\t' && decide (cell.column < indent) then none
    else if isBreak cell.char then
      blockLines literal indent false blank
        { block with emptyLines := cell.char :: block.emptyLines } rest
    else if cell.column = indent then
      blockLines literal indent true (isBlank cell.char) (block.beginLine literal blank cell.char)
        rest
    else some (block, cell :: rest)

/-- Reads a block scalar from behind its mark. Its lines are indented to `margin` at least, and
behind it comes what is indented less. -/
def blockScalar (literal : Bool) (margin : Nat) (cells : List Cell) :
    Option (List Char × List Cell) := do
  let (chomp, digit, cells) ← blockIndicators cells
  let cells ← restOfLine? cells
  let indent ← match digit with
    | some digit => some (margin - 1 + digit)
    | none => (textColumn 0 cells).map (Nat.max (Nat.max margin 1))
  let (block, rest) ← blockLines literal indent false false ⟨[], [], []⟩ cells
  return (block.chomped chomp, rest)

end Yaml

end Specimen
