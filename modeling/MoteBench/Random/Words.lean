/-! Streams of random words, and a number below a bound drawn from one without bias. -/
namespace MoteBench.Random

/-- A state from which words can be drawn; a draw gives the word and the state after it. -/
class WordSource (G : Type) where
  next32 : G → UInt32 × G
  next64 : G → UInt64 × G

/-- How many fractions of a word are accepted: the largest shift of `n` that a word can hold. -/
def reach (n : Nat) : Nat := n <<< (63 - Nat.log2 n)

/-- Whether a word may stand for its part of `[0, n)`; the same number of words does for each part. -/
def accepted (n : Nat) (word : UInt64) : Bool :=
  word.toNat * n % UInt64.size < reach n

def scaled64 (n : Nat) (word : UInt64) : Nat := word.toNat * n / UInt64.size

def scaled32 (n : Nat) (word : UInt32) : Nat := word.toNat * n / UInt32.size

theorem scaled64_lt {n : Nat} (h : 0 < n) (word : UInt64) : scaled64 n word < n := by
  have hw := word.toNat_lt_size
  rw [scaled64, Nat.div_lt_iff_lt_mul (by decide), Nat.mul_comm n]
  exact Nat.mul_lt_mul_of_pos_right hw h

theorem scaled32_lt {n : Nat} (h : 0 < n) (word : UInt32) : scaled32 n word < n := by
  have hw := word.toNat_lt_size
  rw [scaled32, Nat.div_lt_iff_lt_mul (by decide), Nat.mul_comm n]
  exact Nat.mul_lt_mul_of_pos_right hw h

/-- A number below `n`. A word that is not accepted is drawn again, but at most `patience` times;
the word after those counts whatever it is. -/
def drawBelow {G : Type} [WordSource G] (n : Nat) : (patience : Nat) → G → Nat × G
  | 0, g =>
    let (word, g) := WordSource.next64 g
    (scaled64 n word, g)
  | patience + 1, g =>
    let (word, g) := WordSource.next64 g
    if accepted n word then (scaled64 n word, g) else drawBelow n patience g

theorem drawBelow_lt {G : Type} [WordSource G] {n : Nat} (h : 0 < n) (patience : Nat) (g : G) :
    (drawBelow n patience g).1 < n := by
  induction patience generalizing g with
  | zero => exact scaled64_lt h _
  | succ patience ih =>
    simp only [drawBelow]
    split
    · exact scaled64_lt h _
    · exact ih _

end MoteBench.Random
