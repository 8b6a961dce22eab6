import Specimen.Double.Decimal

/-!
# Why a leaf cannot be built
-/

namespace Specimen

/-- Constraints that leave no value. -/
inductive EmptyRange where
  | integers (min max : Int)
  | multiples (step min max : Int)
  | lowerBeyond (bound : Double)
  | upperBeyond (bound : Double)
  | numbers (low high : Double)
  | textLengths (min max : Nat)
  | listLengths (min max : Nat)
  | noEntries
  deriving DecidableEq, Repr

namespace EmptyRange

/-- What was to be drawn. -/
def subject : EmptyRange → String
  | .integers .. | .multiples .. | .lowerBeyond _ | .upperBeyond _ => "integer"
  | .numbers .. => "number"
  | .textLengths .. => "string"
  | .listLengths .. => "array"
  | .noEntries => "index"

def reason : EmptyRange → String
  | .integers min max => s!"minimum {min} is greater than maximum {max}"
  | .multiples step min max => s!"no multiple of {step} in [{min}, {max}]"
  | .lowerBeyond bound => s!"lower bound {bound.text} is beyond the 64-bit integer range"
  | .upperBeyond bound => s!"upper bound {bound.text} is beyond the 64-bit integer range"
  | .numbers low high => s!"no value between {low.text} and {high.text}"
  | .textLengths min max => s!"minLength {min} is greater than maxLength {max}"
  | .listLengths min max => s!"minItems {min} is greater than maxItems {max}"
  | .noEntries => "nothing to pick from"

end EmptyRange

inductive PrimitiveError where
  | unknownFormat (name : String)
  | badPattern (pattern : String)
  | emptyRange (cause : EmptyRange)
  deriving DecidableEq, Repr

namespace PrimitiveError

def message : PrimitiveError → String
  | .unknownFormat name => s!"Unknown format: {name}"
  | .badPattern pattern => s!"Invalid pattern '{pattern}'"
  | .emptyRange cause => s!"Empty range for {cause.subject}: {cause.reason}"

end PrimitiveError

end Specimen
