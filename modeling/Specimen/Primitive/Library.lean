import Specimen.Format.Basic
import Specimen.Pattern.Basic
import Specimen.Primitive.Integer
import Specimen.Primitive.Lengths
import Specimen.Primitive.Number
import Specimen.Primitive.Picker

/-!
# Libraries of leaves

A library builds a leaf for every primitive type, for patterns and for formats, and decides the
lengths of lists and the picks among several.
-/

namespace Specimen

structure Library where
  boolean : Constraints → Except PrimitiveError Leaf
  integer : Constraints → Except PrimitiveError Leaf
  number : Constraints → Except PrimitiveError Leaf
  null : Constraints → Except PrimitiveError Leaf
  string : Constraints → Except PrimitiveError Leaf
  pattern : String → Constraints → Except PrimitiveError Leaf
  format : String → Constraints → Except PrimitiveError Leaf
  array : Constraints → Except PrimitiveError Lengths
  index : Nat → Except PrimitiveError Picker

namespace Library

/-- The library of the nine kinds of leaves, with the given engine for patterns. -/
def standard (engine : Pattern.Engine := .own) : Library where
  boolean _ := .ok Leaf.boolean
  integer c := IntegerRange.leaf <$> IntegerRange.ofConstraints c
  number c := NumberRange.leaf <$> NumberRange.ofConstraints c
  null _ := .ok Leaf.null
  string c := Lengths.textLeaf <$> Lengths.ofText c
  pattern source _ := Pattern.leaf <$> engine.read source
  format name _ := Format.leaf <$> Format.read name
  array c := Lengths.ofList c
  index length := Picker.ofLength length

end Library

end Specimen
