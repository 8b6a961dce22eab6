/-!
# Sources of random words

A source is either a tape of chosen words that goes on as a mixing generator once it is used up, or
the key stream of a cipher. Both are plain values: drawing gives the word and the source after it.
-/

namespace Specimen

inductive Source where
  /-- The words of the tape, then the mixing generator from `state`. -/
  | mixed (tape : List UInt64) (state : UInt64)
  /-- The words left of the current block, then the blocks from number `block` on. -/
  | cipher (key : List UInt32) (block : UInt64) (pending : List UInt32)
  deriving DecidableEq, Repr, Inhabited

namespace Source

/-- The step by which the state of the mixing generator grows. -/
def mixStep : UInt64 := 0x9E3779B97F4A7C15

/-- The word that the mixing generator gives in a state. -/
def mixWord (state : UInt64) : UInt64 :=
  let z := (state ^^^ (state >>> 30)) * 0xBF58476D1CE4E5B9
  let z := (z ^^^ (z >>> 27)) * 0x94D049BB133111EB
  z ^^^ (z >>> 31)

def rotateLeft (x : UInt32) (n : UInt32) : UInt32 :=
  (x <<< n) ||| (x >>> (32 - n))

def quarterRound (s : Array UInt32) (a b c d : Nat) : Array UInt32 :=
  let xa := s.getD a 0
  let xb := s.getD b 0
  let xc := s.getD c 0
  let xd := s.getD d 0
  let xa := xa + xb
  let xd := rotateLeft (xd ^^^ xa) 16
  let xc := xc + xd
  let xb := rotateLeft (xb ^^^ xc) 12
  let xa := xa + xb
  let xd := rotateLeft (xd ^^^ xa) 8
  let xc := xc + xd
  let xb := rotateLeft (xb ^^^ xc) 7
  (((s.setIfInBounds a xa).setIfInBounds b xb).setIfInBounds c xc).setIfInBounds d xd

/-- One round down the columns and one along the diagonals. -/
def doubleRound (s : Array UInt32) : Array UInt32 :=
  let s := quarterRound s 0 4 8 12
  let s := quarterRound s 1 5 9 13
  let s := quarterRound s 2 6 10 14
  let s := quarterRound s 3 7 11 15
  let s := quarterRound s 0 5 10 15
  let s := quarterRound s 1 6 11 12
  let s := quarterRound s 2 7 8 13
  quarterRound s 3 4 9 14

def doubleRounds : Nat → Array UInt32 → Array UInt32
  | 0, s => s
  | n + 1, s => doubleRounds n (doubleRound s)

/-- The words of one cipher block: twelve rounds over the constants, the key, the block number and
an empty stream number, added to what they started from. -/
def blockWords (key : List UInt32) (block : UInt64) : List UInt32 :=
  let constants : List UInt32 := [0x61707865, 0x3320646e, 0x79622d32, 0x6b206574]
  let start := constants ++ key ++ [block.toUInt32, (block >>> 32).toUInt32, 0, 0]
  List.zipWith (· + ·) start (doubleRounds 6 start.toArray).toList

def next32 : Source → UInt32 × Source
  | .mixed (word :: tape) state => (word.toUInt32, .mixed tape state)
  | .mixed [] state =>
    let state := state + mixStep
    ((mixWord state).toUInt32, .mixed [] state)
  | .cipher key block (word :: pending) => (word, .cipher key block pending)
  | .cipher key block [] =>
    match blockWords key block with
    | word :: pending => (word, .cipher key (block + 1) pending)
    | [] => (0, .cipher key (block + 1) [])

/-- The next 64 bits; the cipher gives the low half first. -/
def next64 : Source → UInt64 × Source
  | .mixed (word :: tape) state => (word, .mixed tape state)
  | .mixed [] state =>
    let state := state + mixStep
    (mixWord state, .mixed [] state)
  | .cipher key block pending =>
    let (low, s) := next32 (.cipher key block pending)
    let (high, s) := next32 s
    (low.toUInt64 ||| (high.toUInt64 <<< 32), s)

def littleEndian : Nat → Nat → List Nat
  | 0, _ => []
  | count + 1, word => word % 256 :: littleEndian count (word / 256)

/-- Sixteen bytes, each word giving its low byte first. -/
def bytes16 (s : Source) : List Nat × Source :=
  match s with
  | .mixed .. =>
    let (a, s) := next64 s
    let (b, s) := next64 s
    (littleEndian 8 a.toNat ++ littleEndian 8 b.toNat, s)
  | .cipher .. =>
    let (a, s) := next32 s
    let (b, s) := next32 s
    let (c, s) := next32 s
    let (d, s) := next32 s
    ([a, b, c, d].flatMap (fun word => littleEndian 4 word.toNat), s)

/-- The words of a key spread out from a seed. -/
def keyWords : Nat → UInt64 → List UInt32
  | 0, _ => []
  | count + 1, state =>
    let state := state * 6364136223846793005 + 11634580027462260723
    let x := (((state >>> 18) ^^^ state) >>> 27).toUInt32
    let turn := (state >>> 59).toUInt32
    ((x >>> turn) ||| (x <<< ((32 - turn) % 32))) :: keyWords count state

/-- The cipher source of a seed. -/
def ofSeed (seed : UInt64) : Source :=
  .cipher (keyWords 8 seed) 0 []

/-- How many words a search may take from a source before nothing new can come: after the tape the
mixing generator gives every word once before it repeats itself, and the cipher has used up its
block numbers. -/
def patience : Source → Nat
  | .mixed tape _ => tape.length + 0x10000000000000000
  | .cipher .. => 0x100000000000000000

end Source

end Specimen
