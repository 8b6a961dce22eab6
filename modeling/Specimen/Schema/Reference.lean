import Specimen.Schema.Error
import Specimen.Text.Digits
import Specimen.Text.Split

/-!
# References

A reference names a schema, or none for the one it stands in, and a path of segments into that
schema's document. It is written as `name#/a/b`, with `~0` for a tilde and `~1` for a slash inside
a segment.
-/

namespace Specimen

structure Reference where
  schema : Option String
  segments : List String
  deriving DecidableEq, Repr

namespace Reference

def unescape (cs : List Char) : List Char :=
  Text.replacePair '~' '0' '~' (Text.replacePair '~' '1' '/' cs)

def escapeChar (c : Char) : List Char :=
  if c = '~' then ['~', '0'] else if c = '/' then ['~', '1'] else [c]

def escape (segment : String) : String :=
  String.ofList (segment.toList.flatMap escapeChar)

/-- The segments of a pointer; slashes at its two ends do not count. -/
def segmentsOf (pointer : List Char) : List String :=
  match Text.trimEnds '/' pointer with
  | [] => []
  | trimmed => (Text.split '/' trimmed).map fun part => String.ofList (unescape part)

def ofParts (schema pointer : List Char) : Reference :=
  ⟨if schema = [] then none else some (String.ofList schema), segmentsOf pointer⟩

/-- Reads a reference. An empty text is none, and neither is one with a second `#`. -/
def parse (text : String) : Except SchemaError Reference :=
  match Text.cutAt? '#' text.toList with
  | some (schema, pointer) =>
    if pointer.contains '#' then .error (.badReference text) else .ok (ofParts schema pointer)
  | none => if text = "" then .error (.badReference text) else .ok (ofParts text.toList [])

/-- The schema the reference points into, if it stands in `current`. -/
def schemaOr (r : Reference) (current : String) : String :=
  r.schema.getD current

/-- The path part as text. -/
def pointer (r : Reference) : String :=
  r.segments.foldl (fun text segment => text ++ "/" ++ escape segment) "#"

def text (r : Reference) : String :=
  r.schema.getD "" ++ r.pointer

/-- The position a segment names in an array. -/
def position? (segment : String) : Option Nat :=
  (Text.natural? segment.toList).filter fun n => decide (n < 0x10000000000000000)

/-- The child of a node that a segment names. -/
def child? (node : Json) (segment : String) : Option Json :=
  match node with
  | .obj members => Assoc.get? segment members
  | .arr items => (position? segment).bind fun n => items[n]?
  | _ => none

/-- Follows segments one by one; the error is the first segment without a child. -/
def follow (node : Json) : List String → Except String Json
  | [] => .ok node
  | segment :: rest =>
    match child? node segment with
    | some next => follow next rest
    | none => .error segment

/-- The node a reference points at in a document; the schema's name serves the error only. -/
def lookup (r : Reference) (document : Json) (schema : String) : Except SchemaError Json :=
  match follow document r.segments with
  | .ok node => .ok node
  | .error segment => .error (.missingSegment schema r.pointer segment)

end Reference

end Specimen
