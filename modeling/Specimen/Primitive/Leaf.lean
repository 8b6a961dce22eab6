import Specimen.Json.Basic
import Specimen.Primitive.Buffer

/-!
# Leaves

A leaf draws one value at a time, unless there is no room for it, and may be able to judge values.
-/

namespace Specimen

structure Leaf where
  generate : ExceptT Overflow Draw Json
  /-- Whether a value is one the leaf allows; `none` when the leaf has no opinion. -/
  validate : Json → Option Bool

namespace Leaf

/-- The leaf draws the value from some source. -/
def Gives (leaf : Leaf) (value : Json) : Prop :=
  ∃ s t, leaf.generate s = (.ok value, t)

/-- A fair coin. -/
def boolean : Leaf where
  generate := ExceptT.lift do return .bool (← Draw.bool)
  validate value := some (match value with | .bool _ => true | _ => false)

def null : Leaf where
  generate := pure .null
  validate value := some value.isNull

end Leaf

end Specimen
