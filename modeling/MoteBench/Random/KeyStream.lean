import MoteBench.Random.Words

/-!
The ChaCha key stream with eight rounds, read word by word, and its key made from one 64-bit seed.
The sixteen words of a block are kept as four rows; a column round works on the rows as they are,
a diagonal round on rows turned against each other.
-/
namespace MoteBench.Random

def rotateLeft (x k : UInt32) : UInt32 := (x <<< k) ||| (x >>> (32 - k))

def rotateRight (x k : UInt32) : UInt32 := (x >>> k) ||| (x <<< (32 - k))

structure Row where
  a : UInt32
  b : UInt32
  c : UInt32
  d : UInt32
  deriving DecidableEq, Repr

namespace Row

def map (f : UInt32 → UInt32) (r : Row) : Row := ⟨f r.a, f r.b, f r.c, f r.d⟩

def zipWith (f : UInt32 → UInt32 → UInt32) (r s : Row) : Row :=
  ⟨f r.a s.a, f r.b s.b, f r.c s.c, f r.d s.d⟩

instance : Add Row := ⟨zipWith (· + ·)⟩

instance : XorOp Row := ⟨zipWith (· ^^^ ·)⟩

/-- Moves every word one place to the left, the first one to the end. -/
def turn (r : Row) : Row := ⟨r.b, r.c, r.d, r.a⟩

def toList (r : Row) : List UInt32 := [r.a, r.b, r.c, r.d]

end Row

structure Block where
  r₀ : Row
  r₁ : Row
  r₂ : Row
  r₃ : Row
  deriving DecidableEq, Repr

namespace Block

/-- A half of a quarter round, on all four columns. -/
def mix (j k : UInt32) (x : Block) : Block :=
  let r₀ := x.r₀ + x.r₁
  let r₃ := (x.r₃ ^^^ r₀).map (rotateLeft · j)
  let r₂ := x.r₂ + r₃
  let r₁ := (x.r₁ ^^^ r₂).map (rotateLeft · k)
  ⟨r₀, r₁, r₂, r₃⟩

def columnRound (x : Block) : Block := (x.mix 16 12).mix 8 7

def diagonalRound (x : Block) : Block :=
  let y := columnRound ⟨x.r₀, x.r₁.turn, x.r₂.turn.turn, x.r₃.turn.turn.turn⟩
  ⟨y.r₀, y.r₁.turn.turn.turn, y.r₂.turn.turn, y.r₃.turn⟩

def doubleRound (x : Block) : Block := x.columnRound.diagonalRound

instance : Add Block := ⟨fun x y => ⟨x.r₀ + y.r₀, x.r₁ + y.r₁, x.r₂ + y.r₂, x.r₃ + y.r₃⟩⟩

def eightRounds (x : Block) : Block :=
  x + x.doubleRound.doubleRound.doubleRound.doubleRound

def toList (x : Block) : List UInt32 :=
  x.r₀.toList ++ x.r₁.toList ++ x.r₂.toList ++ x.r₃.toList

theorem length_toList (x : Block) : x.toList.length = 16 := rfl

end Block

/-- A key, the number of the next block, and the words of the last block not read yet. -/
structure KeyStream where
  low : Row
  high : Row
  next : UInt64 := 0
  pending : List UInt32 := []
  deriving DecidableEq, Repr

namespace KeyStream

/-- The constant row spells `expand 32-byte k`. -/
def block (s : KeyStream) : Block :=
  Block.eightRounds ⟨⟨0x61707865, 0x3320646e, 0x79622d32, 0x6b206574⟩, s.low, s.high,
    ⟨s.next.toUInt32, (s.next >>> 32).toUInt32, 0, 0⟩⟩

def nextWord (s : KeyStream) : UInt32 × KeyStream :=
  match s.pending with
  | word :: rest => (word, { s with pending := rest })
  | [] =>
    let words := s.block.toList
    (words.headD 0, { s with next := s.next + 1, pending := words.tail })

/-- The first word drawn is the low half. -/
def nextPair (s : KeyStream) : UInt64 × KeyStream :=
  let (low, s) := s.nextWord
  let (high, s) := s.nextWord
  (high.toUInt64 <<< 32 ||| low.toUInt64, s)

instance : WordSource KeyStream := ⟨nextWord, nextPair⟩

/-- One word of key from a linear congruential state, and the state after it. -/
def keyWord (state : UInt64) : UInt32 × UInt64 :=
  let state := state * 6364136223846793005 + 11634580027462260723
  (rotateRight (((state >>> 18) ^^^ state) >>> 27).toUInt32 (state >>> 59).toUInt32, state)

def keyRow (state : UInt64) : Row × UInt64 :=
  let (a, state) := keyWord state
  let (b, state) := keyWord state
  let (c, state) := keyWord state
  let (d, state) := keyWord state
  (⟨a, b, c, d⟩, state)

def ofSeed (seed : UInt64) : KeyStream :=
  let (low, state) := keyRow seed
  let (high, _) := keyRow state
  { low, high }

end KeyStream

end MoteBench.Random
