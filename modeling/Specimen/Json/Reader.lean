import Specimen.Json.Basic
import Specimen.Double.Decimal
import Specimen.Text.Digits

/-!
# Reading JSON text

A number without point and exponent that 64 bits can hold is an integer, every other number a
float. A key given twice keeps its first place and its last value.
-/

namespace Specimen

namespace Json

namespace Reader

def isBlank (c : Char) : Bool :=
  c = ' ' || c = '\t' || c = '\n' || c = '\r'

def skipBlanks (cs : List Char) : List Char :=
  cs.dropWhile isBlank

def shortEscape? : Char → Option Nat
  | '"' => some 0x22
  | '\\' => some 0x5c
  | '/' => some 0x2f
  | 'b' => some 0x08
  | 'f' => some 0x0c
  | 'n' => some 0x0a
  | 'r' => some 0x0d
  | 't' => some 0x09
  | _ => none

/-- The code units of a string up to its closing quote, and what follows it. -/
def stringUnits : List Char → Option (List Nat × List Char)
  | '"' :: rest => some ([], rest)
  | '\\' :: 'u' :: a :: b :: c :: d :: rest => do
    let unit ← Text.digits? 16 [a, b, c, d]
    let (units, rest) ← stringUnits rest
    return (unit :: units, rest)
  | '\\' :: c :: rest => do
    let unit ← shortEscape? c
    let (units, rest) ← stringUnits rest
    return (unit :: units, rest)
  | c :: rest => do
    let (units, rest) ← stringUnits rest
    return (c.toNat :: units, rest)
  | [] => none

/-- Joins each pair of surrogates into the code point it stands for. -/
def joinSurrogates : List Nat → List Char
  | high :: low :: rest =>
    if 0xd800 ≤ high ∧ high < 0xdc00 ∧ 0xdc00 ≤ low ∧ low < 0xe000 then
      Char.ofNat (0x10000 + (high - 0xd800) * 0x400 + (low - 0xdc00)) :: joinSurrogates rest
    else Char.ofNat high :: joinSurrogates (low :: rest)
  | [unit] => [Char.ofNat unit]
  | [] => []

def string (cs : List Char) : Option (String × List Char) := do
  let (units, rest) ← stringUnits cs
  return (String.ofList (joinSurrogates units), rest)

/-- The value of a number as it is written, the minus sign apart. -/
def unsigned (negative : Bool) (cs : List Char) : Json :=
  let whole := cs.takeWhile Char.isDigit
  let rest := cs.dropWhile Char.isDigit
  let (fraction, rest) := match rest with
    | '.' :: rest => (rest.takeWhile Char.isDigit, rest.dropWhile Char.isDigit)
    | rest => ([], rest)
  let exponent := match rest with
    | _ :: rest => Text.signedValue rest
    | [] => 0
  let digits := Text.decimalValue (whole ++ fraction)
  let isInteger := cs.all Char.isDigit &&
    (if negative then decide (0 < digits ∧ digits ≤ 0x8000000000000000)
      else decide (digits < 0x10000000000000000))
  if isInteger then .int (if negative then -(digits : Int) else digits)
  else .float (Decimal.toDouble ⟨negative, digits, exponent - (fraction.length : Int)⟩)

def isNumberChar (c : Char) : Bool :=
  c.isDigit || c = '.' || c = 'e' || c = 'E' || c = '+' || c = '-'

def number (cs : List Char) : Json × List Char :=
  let text := cs.takeWhile isNumberChar
  let rest := cs.dropWhile isNumberChar
  match text with
  | '-' :: digits => (unsigned true digits, rest)
  | digits => (unsigned false digits, rest)

mutual

def value : Nat → List Char → Option (Json × List Char)
  | 0, _ => none
  | fuel + 1, cs =>
    match skipBlanks cs with
    | 'n' :: 'u' :: 'l' :: 'l' :: rest => some (.null, rest)
    | 't' :: 'r' :: 'u' :: 'e' :: rest => some (.bool true, rest)
    | 'f' :: 'a' :: 'l' :: 's' :: 'e' :: rest => some (.bool false, rest)
    | '"' :: rest => do
      let (text, rest) ← string rest
      return (.str text, rest)
    | '[' :: rest =>
      match skipBlanks rest with
      | ']' :: rest => some (.arr [], rest)
      | rest => do
        let (items, rest) ← items fuel rest
        return (.arr items, rest)
    | '{' :: rest =>
      match skipBlanks rest with
      | '}' :: rest => some (.obj [], rest)
      | rest => do
        let (members, rest) ← members fuel [] rest
        return (.obj members, rest)
    | c :: rest => if c.isDigit || c = '-' then some (number (c :: rest)) else none
    | [] => none

def items : Nat → List Char → Option (List Json × List Char)
  | 0, _ => none
  | fuel + 1, cs => do
    let (item, rest) ← value fuel cs
    match skipBlanks rest with
    | ',' :: rest =>
      let (others, rest) ← items fuel rest
      return (item :: others, rest)
    | ']' :: rest => return ([item], rest)
    | _ => none

def members : Nat → List (String × Json) → List Char → Option (List (String × Json) × List Char)
  | 0, _, _ => none
  | fuel + 1, done, cs => do
    let '"' :: rest := skipBlanks cs | none
    let (key, rest) ← string rest
    let ':' :: rest := skipBlanks rest | none
    let (item, rest) ← value fuel rest
    let done := Assoc.put key item done
    match skipBlanks rest with
    | ',' :: rest => members fuel done rest
    | '}' :: rest => return (done, rest)
    | _ => none

end

end Reader

/-- Reads a text that holds one value and nothing else but blanks around it. -/
def parse? (text : String) : Option Json := do
  let cs := text.toList
  let (node, rest) ← Reader.value (cs.length + 1) cs
  if Reader.skipBlanks rest = [] then some node else none

end Json

end Specimen
