import Specimen.Generator.Compile

/-!
# Drafts

Generating gives a draft first: an object hands back the generators of its members instead of values,
so that a member can still be replaced. Resolving a draft generates what it left open. Both take a
depth, the number of calls that may be open inside each other; a run that stays within it does not
depend on it.
-/

namespace Specimen

inductive Draft where
  | value (value : Json)
  | fields (fields : List (String × Generator))
  | items (items : List Draft)

/-- The greatest number of drafts that a list is filled with; a draft takes up 72 bytes. -/
def Draft.room : Nat := Buffer.room 72

/-- Why a run has no value: an error, calls open deeper than allowed, a pick of a place that is not
there, or a length that there is no room for. -/
inductive Halt where
  | error (cause : Error)
  | tooDeep
  | outOfRange
  | overflow (cause : Overflow)

abbrev Generation := ExceptT Halt Draw

namespace Generation

def ofExcept {α : Type} (result : Except Error α) : Generation α :=
  match result with
  | .ok value => pure value
  | .error cause => throw (.error cause)

def ofDraw {α : Type} (draw : Draw α) : Generation α :=
  ExceptT.lift draw

def ofLeaf (leaf : Leaf) : Generation Json :=
  ExceptT.adapt Halt.overflow leaf.generate

/-- The member at a picked place. -/
def pick {α : Type} (picker : Picker) (members : List α) : Generation α := do
  match members[← ofDraw picker.pick]? with
  | some member => return member
  | none => throw .outOfRange

end Generation

namespace Generator

/-- The generator of a reference's target, with what stood beside the reference laid over it. -/
def dereference (catalog : Catalog) (schema : String) (target : Reference) (overlay : Json) :
    Except Error Generator :=
  match catalog.resolve schema target with
  | .ok node => Scope.compile ⟨schema, catalog.library⟩ (node.merge overlay)
  | .error e => .error e

/-- One draft of a generator. -/
def generate (catalog : Catalog) (depth : Nat) (generator : Generator) : Generation Draft :=
  match depth with
  | 0 => throw .tooDeep
  | depth + 1 =>
    match generator with
    | .reference schema target overlay => do
      generate catalog depth (← Generation.ofExcept (dereference catalog schema target overlay))
    | .choice _ candidates picker => do
      generate catalog depth (← Generation.pick picker candidates)
    | .allOf merged => generate catalog depth merged
    | .leaf l => do return .value (← Generation.ofLeaf l)
    | .enumeration values picker => do return .value (← Generation.pick picker values)
    | .empty => return .value (.obj [])
    | .object fields => return .fields fields
    | .tuple items => do return .items (← items.mapM (generate catalog depth))
    | .list item lengths => do
      return .items (← lengths.fill Draft.room Halt.overflow fun _ => generate catalog depth item)

end Generator

namespace Draft

/-- The value of a draft, with everything generated that it left open. -/
def resolve (catalog : Catalog) (depth : Nat) (draft : Draft) : Generation Json :=
  match depth with
  | 0 => throw .tooDeep
  | depth + 1 =>
    match draft with
    | .value v => pure v
    | .fields generators => do
      let members ← generators.mapM fun (name, generator) => do
        let draft ← generator.generate catalog depth
        return (name, ← resolve catalog depth draft)
      return .obj members
    | .items drafts => do return .arr (← drafts.mapM (resolve catalog depth))

end Draft

/-- One value of a generator. -/
def Generator.produce (catalog : Catalog) (depth : Nat) (generator : Generator) :
    Generation Json := do
  (← generator.generate catalog depth).resolve catalog depth

end Specimen
