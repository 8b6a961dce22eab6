import Specimen.Random.Draw
import Specimen.Text.Digits

/-!
# Identifiers of 128 bits

Sixteen bytes in hexadecimal, usually in five groups with hyphens between them.
-/

namespace Specimen

namespace Identifier

def hexDigit (n : Nat) : Char :=
  if n < 10 then Char.ofNat (48 + n) else Char.ofNat (87 + n)

def byteText (byte : Nat) : List Char :=
  [hexDigit (byte / 16 % 16), hexDigit (byte % 16)]

/-- The sizes of the groups, in bytes. -/
def groupSizes : List Nat := [4, 2, 2, 2, 6]

def groupsOf : List Nat → List Nat → List (List Nat)
  | [], _ => []
  | count :: counts, bytes => bytes.take count :: groupsOf counts (bytes.drop count)

def text (bytes : List Nat) : List Char :=
  ['-'].intercalate ((groupsOf groupSizes bytes).map fun group => group.flatMap byteText)

/-- Random bytes with the marks of the fourth version and of the common variant. -/
def mark (bytes : List Nat) : List Nat :=
  bytes.mapIdx fun place byte =>
    if place = 6 then byte % 16 + 0x40 else if place = 8 then byte % 64 + 0x80 else byte

def draw : Draw (List Nat) := fun s =>
  let (bytes, s) := s.bytes16
  (mark bytes, s)

/-- As many bytes as asked for at the start of a text. -/
def bytes? : Nat → List Char → Option (List Nat × List Char)
  | 0, cs => some ([], cs)
  | count + 1, high :: low :: rest => do
    let byte ← Text.digits? 16 [high, low]
    let (bytes, rest) ← bytes? count rest
    return (byte :: bytes, rest)
  | _ + 1, _ => none

/-- Groups of the given sizes with hyphens between them, up to the end of a text. -/
def hyphenated? : List Nat → List Char → Option (List Nat)
  | [], _ => none
  | [count], cs => do
    let (bytes, rest) ← bytes? count cs
    if rest = [] then some bytes else none
  | count :: counts, cs => do
    let (bytes, rest) ← bytes? count cs
    let '-' :: rest := rest | none
    return bytes ++ (← hyphenated? counts rest)

def urn : List Char := "urn:uuid:".toList

/-- Reads an identifier: plain digits, or groups with hyphens alone, in braces or after the name of
the identifier's space. -/
def read? (cs : List Char) : Option (List Nat) :=
  match bytes? 16 cs with
  | some (bytes, []) => some bytes
  | _ =>
    match cs with
    | '{' :: rest =>
      if rest.getLast? = some '}' then hyphenated? groupSizes rest.dropLast else none
    | cs =>
      if urn.isPrefixOf cs then hyphenated? groupSizes (cs.drop urn.length)
      else hyphenated? groupSizes cs

end Identifier

end Specimen
