import Specimen.Random.Draw
import Specimen.Text.Split

/-!
# Host names

Labels of ASCII letters, digits and inner hyphens with points between them, and the addresses that
are built on host names.
-/

namespace Specimen

namespace Host

def words : List String :=
  ["alpha", "bravo", "charlie", "delta", "echo", "foxtrot", "golf", "hotel", "india", "juliet"]

def domains : List String :=
  ["com", "net", "org", "io", "dev"]

def drawWord : Draw (List Char) := do
  return (← Draw.choose words "fixture").toList

/-- The domain is drawn before the word that stands before it. -/
def drawName : Draw (List Char) := do
  let domain ← Draw.choose domains "com"
  return (← drawWord) ++ '.' :: domain.toList

def drawMail : Draw (List Char) := do
  let word ← drawWord
  let number := 1 + (← Draw.below32 9999)
  return word ++ '.' :: Nat.toDigits 10 number ++ '@' :: (← drawName)

def drawUri : Draw (List Char) := do
  let name ← drawName
  return "https://".toList ++ name ++ '/' :: (← drawWord)

def maxLength : Nat := 253

def maxLabelLength : Nat := 63

/-- The length of a text in bytes. -/
def byteLength (cs : List Char) : Nat :=
  (String.ofList cs).utf8ByteSize

def isLabel (cs : List Char) : Bool :=
  cs ≠ [] && decide (byteLength cs ≤ maxLabelLength) &&
    cs.head? ≠ some '-' && cs.getLast? ≠ some '-' &&
    cs.all fun c => c.isAlphanum || c = '-'

def isName (cs : List Char) : Bool :=
  cs ≠ [] && decide (byteLength cs ≤ maxLength) && (Text.split '.' cs).all isLabel

def isMail (cs : List Char) : Bool :=
  match Text.cutAt? '@' cs with
  | some (user, domain) => user ≠ [] && isName domain
  | none => false

/-- The parts before and after the first mark between a scheme and the rest. -/
def cutScheme? : List Char → Option (List Char × List Char)
  | ':' :: '/' :: '/' :: rest => some ([], rest)
  | c :: rest => (cutScheme? rest).map fun (scheme, rest) => (c :: scheme, rest)
  | [] => none

def isSchemeChar (c : Char) : Bool :=
  c.isAlphanum || c = '+' || c = '-' || c = '.'

def isUri (cs : List Char) : Bool :=
  match cutScheme? cs with
  | some (scheme, rest) =>
    rest ≠ [] && scheme.head?.any Char.isAlpha && scheme.all isSchemeChar
  | none => false

end Host

end Specimen
