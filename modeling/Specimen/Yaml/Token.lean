import Specimen.Yaml.Scalar.Block
import Specimen.Yaml.Scalar.Flow

/-!
# Tokens

The tokens of a document, where indentation shows as the beginning and the end of block collections,
and the readers of names, tags and directives.
-/

namespace Specimen

namespace Yaml

/-- How a scalar is written. -/
inductive Style where
  | plain
  | quoted
  | literal
  | folded
  deriving DecidableEq, Repr

inductive Token where
  | version (major minor : Nat)
  /-- What the tags with a handle begin with. -/
  | handle (name expansion : String)
  | documentStart
  | documentEnd
  | blockSequence
  | blockMapping
  | blockEnd
  | flowSequence
  | flowSequenceEnd
  | flowMapping
  | flowMappingEnd
  /-- The hyphen before an element. -/
  | element
  /-- The comma inside brackets. -/
  | comma
  | key
  | value
  | alias (name : String)
  | anchor (name : String)
  | tag (handle suffix : String)
  | scalar (style : Style) (text : String)
  deriving DecidableEq, Repr

def wordOf (cells : List Cell) : List Char × List Cell :=
  (charsOf (cells.takeWhile fun cell => isWord cell.char),
    cells.dropWhile fun cell => isWord cell.char)

/-- The name of an anchor or an alias, which a blank or certain marks must follow. -/
def anchorName? (cells : List Cell) : Option (String × List Cell) :=
  let (name, rest) := wordOf cells
  let isEnd := atBlank rest || match rest with
    | next :: _ => ['?', ':', ',', ']', '}', '%', '@', '\x60'].contains next.char
    | [] => true
  if name ≠ [] ∧ isEnd then some (String.ofList name, rest) else none

/-- The characters of a tag; some may only stand in one that is written out in full. -/
def isTagChar (full : Bool) (c : Char) : Bool :=
  isWord c || [';', '/', '?', ':', '@', '&', '=', '+', '$', '.', '%', '!', '~', '*', '\'', '(',
    ')'].contains c || (full && [',', '[', ']'].contains c)

/-- The octets of a sequence of percent signs with two hexadecimal digits each, as far as it goes. -/
def octets? (cs : List Char) : Option (List Nat) :=
  match cs with
  | [] => some []
  | '%' :: high :: low :: rest => do
    let octet ← Text.digits? 16 [high, low]
    return octet :: (← octets? rest)
  | _ => none

/-- The number of octets of a character, by the first of them. -/
def octetCount? (first : Nat) : Option Nat :=
  if first < 0x80 then some 1
  else if 0xc0 ≤ first ∧ first < 0xe0 then some 2
  else if 0xe0 ≤ first ∧ first < 0xf0 then some 3
  else if 0xf0 ≤ first ∧ first < 0xf8 then some 4
  else none

/-- The code in the octets of one character; all but the first begin with the bits `10`. -/
def codeOfOctets? : List Nat → Option Nat
  | [] => none
  | first :: others => do
    let start := if first < 0x80 then first
      else if first < 0xe0 then first % 0x20
      else if first < 0xf0 then first % 0x10
      else first % 0x08
    others.foldlM (fun code octet =>
      if 0x80 ≤ octet ∧ octet < 0xc0 then some (code * 0x40 + octet % 0x40) else none) start

/-- The text of a tag with the characters written as octets put in. -/
def tagText? (cs : List Char) : Option (List Char) :=
  match cs with
  | [] => some []
  | c :: rest =>
    if c = '%' then do
      let [first] ← octets? ((c :: rest).take 3) | none
      let count ← octetCount? first
      let octets ← octets? ((c :: rest).take (3 * count))
      if octets.length = count then
        let code ← codeOfOctets? octets
        return Char.ofNat code :: (← tagText? (rest.drop (3 * count - 1)))
      else none
    else do return c :: (← tagText? rest)
termination_by cs.length
decreasing_by all_goals simp only [List.length_cons, List.length_drop]; omega

/-- The characters of a tag from here on, which may be none only behind others. -/
def tagPart? (full : Bool) (before : List Char) (cells : List Cell) :
    Option (String × List Cell) := do
  let chars := charsOf (cells.takeWhile fun cell => isTagChar full cell.char)
  let text ← tagText? chars
  if before = [] ∧ chars = [] then none
  else return (String.ofList (before.drop 1 ++ text),
    cells.dropWhile fun cell => isTagChar full cell.char)

/-- The exclamation mark and what belongs to a handle behind it, and whether a second mark closes
the handle. -/
def handleOf (cells : List Cell) : List Char × Bool × List Cell :=
  let (name, rest) := wordOf cells
  match rest with
  | next :: others =>
    if next.char = '!' then ('!' :: (name ++ ['!']), true, others) else ('!' :: name, false, rest)
  | [] => ('!' :: name, false, [])

/-- A tag, behind its exclamation mark: in full between angle brackets, behind a handle, or local. -/
def tagBody? (cells : List Cell) : Option (Token × List Cell) :=
  match cells with
  | ⟨'<', _, _, _⟩ :: rest => do
    let (text, rest) ← tagPart? true [] rest
    let ⟨'>', _, _, _⟩ :: rest := rest | none
    return (.tag "" text, rest)
  | cells =>
    match handleOf cells with
    | (name, true, rest) => do
      let (suffix, rest) ← tagPart? false [] rest
      return (.tag (String.ofList name) suffix, rest)
    | (name, false, rest) => do
      let (suffix, rest) ← tagPart? false name rest
      return (if suffix = "" then .tag "" "!" else .tag "!" suffix, rest)

/-- A tag with the blank or comma that must follow it still to come. -/
def tag? (flow : Bool) (cells : List Cell) : Option (Token × List Cell) := do
  let (token, rest) ← tagBody? cells
  let isEnd := atBlank rest || match rest with
    | next :: _ => flow && next.char = ','
    | [] => true
  if isEnd then return (token, rest) else none

/-- A number of at most nine digits. -/
def versionNumber? (cells : List Cell) : Option (Nat × List Cell) :=
  let digits := charsOf (cells.takeWhile fun cell => cell.char.isDigit)
  if 0 < digits.length ∧ digits.length < 10 then
    some (Text.decimalValue digits, cells.dropWhile fun cell => cell.char.isDigit)
  else none

def skipBlanks (cells : List Cell) : List Cell :=
  cells.dropWhile fun cell => isBlank cell.char

/-- A directive, behind its percent sign, to the end of its line. -/
def directive? (cells : List Cell) : Option (Token × List Cell) :=
  let (name, rest) := wordOf cells
  if !atBlank rest then none
  else match String.ofList name with
    | "YAML" => do
      let (major, rest) ← versionNumber? (skipBlanks rest)
      let ⟨'.', _, _, _⟩ :: rest := rest | none
      let (minor, rest) ← versionNumber? rest
      return (.version major minor, ← restOfLine? rest)
    | "TAG" => do
      let ⟨'!', _, _, _⟩ :: rest := skipBlanks rest | none
      let (handle, closed, rest) := handleOf rest
      let next :: rest := rest | none
      if (closed || handle = ['!']) && isBlank next.char then
        let (expansion, rest) ← tagPart? true [] (skipBlanks rest)
        if atBlank rest then
          return (.handle (String.ofList handle) expansion, ← restOfLine? rest)
        else none
      else none
    | _ => none

end Yaml

end Specimen
