import Specimen.Primitive.Error
import Specimen.Random.Draw

/-!
# Picking one of several

A picker draws a place below its bound, which is never zero.
-/

namespace Specimen

structure Picker where
  bound : Nat
  bound_pos : 0 < bound

namespace Picker

def ofLength (length : Nat) : Except PrimitiveError Picker :=
  if h : 0 < length then .ok ⟨length, h⟩ else .error (.emptyRange .noEntries)

def pick (picker : Picker) : Draw Nat :=
  Draw.below64 picker.bound

theorem bound_of_ofLength {length : Nat} {picker : Picker} (h : ofLength length = .ok picker) :
    picker.bound = length := by
  rw [ofLength] at h
  split at h
  · cases h
    rfl
  · cases h

theorem exists_ofLength {length : Nat} (h : 0 < length) : ∃ picker, ofLength length = .ok picker :=
  ⟨⟨length, h⟩, dif_pos h⟩

end Picker

end Specimen
