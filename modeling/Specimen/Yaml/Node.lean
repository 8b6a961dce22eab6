import Specimen.Assoc
import Specimen.Yaml.Layout

/-!
# Nodes

A document is a tree of scalars, sequences and mappings. An alias holds the node it stands for; one
inside of that node itself has nothing to hold yet.
-/

namespace Specimen

namespace Yaml

inductive Node where
  | scalar (tag : Option String) (style : Style) (text : String)
  | sequence (tag : Option String) (items : List Node)
  | mapping (tag : Option String) (entries : List (Node × Node))
  | alias (target : Node)
  /-- An alias to a node that it is a part of. -/
  | cyclic

namespace Node

/-- What is written where nothing stands. -/
def blank : Node :=
  .scalar none .plain ""

mutual

/-- The number of steps in which a node is written: one for a scalar or an alias, and two around the
parts of a collection. -/
def steps : Node → Nat
  | .scalar .. => 1
  | .sequence _ items => 2 + stepsItems items
  | .mapping _ entries => 2 + stepsEntries entries
  | .alias _ => 1
  | .cyclic => 1
termination_by structural node => node

def stepsItems : List Node → Nat
  | [] => 0
  | item :: rest => steps item + stepsItems rest
termination_by structural items => items

def stepsEntries : List (Node × Node) → Nat
  | [] => 0
  | (key, value) :: rest => steps key + (steps value + stepsEntries rest)
termination_by structural entries => entries

end

end Node

/-- What is left to read, the nodes of the anchors so far (without a node while it is being read), and
what handles stand for. -/
structure Scene where
  tokens : List Token
  anchors : List (String × Option Node)
  handles : List (String × String)

abbrev Grammar := StateT Scene Option

namespace Grammar

def peek : Grammar (Option Token) := do
  return (← get).tokens.head?

def advance : Grammar Unit :=
  modify fun scene => { scene with tokens := scene.tokens.tail }

def nextIs (tokens : List Token) : Grammar Bool := do
  return match ← peek with
    | some token => tokens.contains token
    | none => false

/-- Skips a token if it comes next. -/
def take (token : Token) : Grammar Bool := do
  if ← nextIs [token] then
    advance
    return true
  else return false

def expect (token : Token) : Grammar Unit := do
  if ← take token then return else failure

def fullTag (handle suffix : String) : Grammar String := do
  if handle = "" then return suffix
  else match Assoc.get? handle (← get).handles with
    | some expansion => return expansion ++ suffix
    | none => failure

/-- The anchor and the tag in front of a node, in either order. -/
def properties : Grammar (Option String × Option String) := do
  match ← peek with
  | some (.anchor name) =>
    advance
    match ← peek with
    | some (.tag handle suffix) =>
      advance
      return (some name, some (← fullTag handle suffix))
    | _ => return (some name, none)
  | some (.tag handle suffix) =>
    advance
    let tag ← fullTag handle suffix
    match ← peek with
    | some (.anchor name) =>
      advance
      return (some name, some tag)
    | _ => return (none, some tag)
  | _ => return (none, none)

/-- The node of an alias: the last one before it that has the anchor. -/
def aliasNode (name : String) : Grammar Node := do
  match Assoc.get? name (← get).anchors with
  | some (some node) => return .alias node
  | some none => return .cyclic
  | none => failure

def beginAnchor (anchor : Option String) : Grammar Unit :=
  match anchor with
  | some name => modify fun scene => { scene with anchors := Assoc.put name none scene.anchors }
  | none => return

/-- Gives an anchor its node, unless a part of the node has taken the name. -/
def endAnchor (anchor : Option String) (node : Node) : Grammar Unit := do
  match anchor with
  | some name =>
    if let some none := Assoc.get? name (← get).anchors then
      modify fun scene => { scene with anchors := Assoc.put name (some node) scene.anchors }
  | none => return

/-- A plain exclamation mark in front of a scalar is as good as no tag. -/
def scalarTag (tag : Option String) : Option String :=
  if tag = some "!" then none else tag

/-- Nothing stands where one of the tokens comes next, and otherwise a node. -/
def optional (ends : List Token) (node : Grammar Node) : Grammar Node := do
  if ← nextIs ends then return Node.blank else node

mutual

/-- A node. Block collections stand in block places only, and a sequence in a mapping may do without
indentation of its own. Every call uses up a unit of fuel. -/
def node (fuel : Nat) (block unindented : Bool) : Grammar Node :=
  match fuel with
  | 0 => failure
  | fuel + 1 => do
    if let some (.alias name) ← peek then
      advance
      aliasNode name
    else
      let (anchor, tag) ← properties
      beginAnchor anchor
      let node ← content fuel block unindented (anchor.isSome || tag.isSome) tag
      endAnchor anchor node
      return node

/-- What stands behind the properties of a node, which may be nothing if it has any. -/
def content (fuel : Nat) (block unindented hasProperties : Bool) (tag : Option String) :
    Grammar Node :=
  match fuel with
  | 0 => failure
  | fuel + 1 => do
    match ← peek with
    | some (.scalar style text) =>
      advance
      return .scalar (scalarTag tag) style text
    | some .flowSequence =>
      advance
      return .sequence tag (← flowItems fuel true)
    | some .flowMapping =>
      advance
      return .mapping tag (← flowEntries fuel true)
    | next =>
      if unindented && next = some .element then return .sequence tag (← bareItems fuel)
      else if block && next = some .blockSequence then
        advance
        return .sequence tag (← blockItems fuel)
      else if block && next = some .blockMapping then
        advance
        return .mapping tag (← blockEntries fuel)
      else if hasProperties then return .scalar tag .plain ""
      else failure

/-- The elements of an indented sequence. -/
def blockItems (fuel : Nat) : Grammar (List Node) :=
  match fuel with
  | 0 => failure
  | fuel + 1 => do
    if ← take .blockEnd then return []
    else
      expect .element
      let item ← optional [.element, .blockEnd] (node fuel true false)
      return item :: (← blockItems fuel)

/-- The elements of a sequence that is not indented. -/
def bareItems (fuel : Nat) : Grammar (List Node) :=
  match fuel with
  | 0 => failure
  | fuel + 1 => do
    if ← take .element then
      let item ← optional [.element, .key, .value, .blockEnd] (node fuel true false)
      return item :: (← bareItems fuel)
    else return []

def blockEntries (fuel : Nat) : Grammar (List (Node × Node)) :=
  match fuel with
  | 0 => failure
  | fuel + 1 => do
    if ← take .blockEnd then return []
    else
      expect .key
      let part := optional [.key, .value, .blockEnd] (node fuel true true)
      let key ← part
      let value ← if ← take .value then part else pure Node.blank
      return (key, value) :: (← blockEntries fuel)

/-- The elements between square brackets. A comma comes before every element but the first, and one
may stand before the closing bracket. -/
def flowItems (fuel : Nat) (first : Bool) : Grammar (List Node) :=
  match fuel with
  | 0 => failure
  | fuel + 1 => do
    if ← take .flowSequenceEnd then return []
    else
      if !first then expect .comma
      if ← take .flowSequenceEnd then return []
      else
        let item ← if ← take .key then pair fuel else node fuel false false
        return item :: (← flowItems fuel false)

/-- A mapping of one entry without brackets of its own. Where its key is missing, the next token
counts as the key. -/
def pair (fuel : Nat) : Grammar Node :=
  match fuel with
  | 0 => failure
  | fuel + 1 => do
    let key ← if ← nextIs [.value, .comma, .flowSequenceEnd] then
        advance
        pure Node.blank
      else node fuel false false
    let value ← if ← take .value then
        optional [.comma, .flowSequenceEnd] (node fuel false false)
      else pure Node.blank
    return .mapping none [(key, value)]

/-- The entries between curly brackets, separated like elements. An entry may be a key alone. -/
def flowEntries (fuel : Nat) (first : Bool) : Grammar (List (Node × Node)) :=
  match fuel with
  | 0 => failure
  | fuel + 1 => do
    if ← take .flowMappingEnd then return []
    else
      if !first then expect .comma
      if ← take .flowMappingEnd then return []
      else
        let entry ← if ← take .key then do
            let key ← optional [.value, .comma, .flowMappingEnd] (node fuel false false)
            let value ← if ← take .value then
                optional [.comma, .flowMappingEnd] (node fuel false false)
              else pure Node.blank
            pure (key, value)
          else do
            let key ← node fuel false false
            pure (key, Node.blank)
        return entry :: (← flowEntries fuel false)

end

/-- The directives in front of a document: one version at most, which must be 1.1 or 1.2, and a
handle at most once. `version` says whether there was a version, and `fuel` bounds their number. -/
def directives : Nat → Bool → List (String × String) → Grammar (List (String × String))
  | 0, _, _ => failure
  | fuel + 1, version, handles => do
    match ← peek with
    | some (.version major minor) =>
      if !version && major = 1 && (minor = 1 || minor = 2) then
        advance
        directives fuel true handles
      else failure
    | some (.handle name expansion) =>
      if Assoc.contains name handles then failure
      else
        advance
        directives fuel version (Assoc.put name expansion handles)
    | _ => return handles

/-- The handles that need no directive. -/
def defaultHandles : List (String × String) :=
  [("!", "!"), ("!!", "tag:yaml.org,2002:")]

def withDefaults (handles : List (String × String)) : List (String × String) :=
  handles ++ defaultHandles.filter fun (name, _) => !Assoc.contains name handles

def isDirective : Token → Bool
  | .version .. | .handle .. => true
  | _ => false

/-- A document behind its directives and its mark, if it has any. -/
def document (fuel : Nat) : Grammar Node := do
  let next ← peek
  if next.any isDirective || next = some .documentStart then
    let handles ← directives fuel false []
    modify fun scene => { scene with handles := withDefaults handles }
    expect .documentStart
    let next ← peek
    if next.any isDirective || next = some .documentStart || next = some .documentEnd ||
        next = none then
      return Node.blank
    else node fuel true false
  else node fuel true false

end Grammar

/-- A bound on the calls that are open inside each other: of any three in a row, one reads a token. -/
def fuelFor (tokens : List Token) : Nat :=
  3 * tokens.length + 3

/-- The node of a text that holds one document; `none` of a text without any. Marks for its end may
follow. -/
def document? (text : String) : Option (Option Node) := do
  let tokens ← tokens? text
  if tokens = [] then return none
  else
    let (node, scene) ← Grammar.document (fuelFor tokens) ⟨tokens, [], Grammar.defaultHandles⟩
    if scene.tokens.all (· = .documentEnd) then return some node else none

end Yaml

end Specimen
