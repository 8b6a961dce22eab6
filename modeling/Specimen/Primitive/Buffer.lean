import Specimen.Random.Draw

/-!
# Buffers

Texts, lists and stores are put together in buffers, which get all their room before anything is put
in. The bytes of a buffer are counted by a 64-bit word with a sign, so there are lengths that no
buffer has room for.
-/

namespace Specimen

/-- More places were asked for than the buffer can have. -/
structure Overflow where
  places : Nat
  deriving DecidableEq, Repr

namespace Buffer

/-- The greatest number of bytes of a buffer. -/
def maxBytes : Nat := 0x7fffffffffffffff

/-- The greatest number of places of a buffer, for places of that many bytes. -/
def room (width : Nat) : Nat := maxBytes / width

end Buffer

end Specimen
