import Mathlib.Algebra.Order.Floor.Div
import Mathlib.Data.Set.Card
import Mathlib.Order.Interval.Finset.Nat
import MoteBench.Random.Words

/-!
Numbers below a bound are drawn fairly: as many of the accepted words stand for one as for any other.
A draw takes the words that it rejects, and the first that it accepts.
-/
namespace MoteBench.Random

/-! ### Words of a draw -/

section Draw

variable {G : Type} [WordSource G]

/-- The state after `count` words of 64 bits. -/
def skip64 (g : G) : (count : Nat) → G
  | 0 => g
  | count + 1 => skip64 (WordSource.next64 g).2 count

/-- The word of 64 bits that is drawn after `count` others. -/
def word64 (g : G) (count : Nat) : UInt64 := (WordSource.next64 (skip64 g count)).1

/-- A draw below `n` ends with the word that comes after `rejected` others. -/
structure EndsAfter (n : Nat) (g : G) (rejected : Nat) : Prop where
  rejects : ∀ i < rejected, accepted n (word64 g i) = false
  accepts : accepted n (word64 g rejected) = true

theorem drawBelow_of_endsAfter {n rejected patience : Nat} {g : G} (h : EndsAfter n g rejected)
    (hpatience : rejected ≤ patience) :
    drawBelow n patience g = (scaled64 n (word64 g rejected), skip64 g (rejected + 1)) := by
  induction rejected generalizing g patience with
  | zero =>
    have haccepts : accepted n (WordSource.next64 g).1 = true := h.accepts
    cases patience with
    | zero => rfl
    | succ patience =>
      rw [drawBelow]
      exact if_pos haccepts
  | succ rejected ih =>
    obtain ⟨patience, rfl⟩ := Nat.exists_eq_add_of_le' hpatience
    have hrejects : accepted n (WordSource.next64 g).1 = false :=
      h.rejects 0 (Nat.succ_pos rejected)
    have hrest : EndsAfter n (WordSource.next64 g).2 rejected :=
      ⟨fun i hi => h.rejects (i + 1) (Nat.succ_lt_succ hi), h.accepts⟩
    rw [← Nat.add_assoc, drawBelow]
    dsimp only
    rw [hrejects]
    exact ih hrest (by omega)

end Draw

/-! ### How many words there are for each number -/

/-- As many words lie in an interval as it is long. -/
theorem ncard_words {W : Type} {toNat : W → Nat} {size start length : Nat}
    (hinjective : Function.Injective toNat) (hrange : ∀ m < size, ∃ word, toNat word = m)
    (hfits : start + length ≤ size) :
    {word | start ≤ toNat word ∧ toNat word < start + length}.ncard = length := by
  have himage : toNat '' {word | start ≤ toNat word ∧ toNat word < start + length} =
      ↑(Finset.Ico start (start + length)) := by
    ext m
    simp only [Set.mem_image, Set.mem_ofPred_eq, Finset.coe_Ico, Set.mem_Ico]
    constructor
    · rintro ⟨word, hword, rfl⟩
      exact hword
    · intro hm
      obtain ⟨word, rfl⟩ := hrange m (by omega)
      exact ⟨word, hm, rfl⟩
  rw [← Set.ncard_image_of_injective _ hinjective, himage, Set.ncard_coe_finset, Nat.card_Ico]
  omega

theorem ncard_words64 {start length : Nat} (hfits : start + length ≤ UInt64.size) :
    {word : UInt64 | start ≤ word.toNat ∧ word.toNat < start + length}.ncard = length :=
  ncard_words (fun _ _ => UInt64.toNat_inj.mp)
    (fun m hm => ⟨.ofNatLT m hm, UInt64.toNat_ofNatLT⟩) hfits

theorem ncard_words32 {start length : Nat} (hfits : start + length ≤ UInt32.size) :
    {word : UInt32 | start ≤ word.toNat ∧ word.toNat < start + length}.ncard = length :=
  ncard_words (fun _ _ => UInt32.toNat_inj.mp)
    (fun m hm => ⟨.ofNatLT m hm, UInt32.toNat_ofNatLT⟩) hfits

theorem reach_eq (n : Nat) : reach n = n * 2 ^ (63 - n.log2) := Nat.shiftLeft_eq n _

theorem reach_le {n : Nat} (hpos : 0 < n) (hn : n < UInt64.size) : reach n ≤ UInt64.size := by
  have hlog : n.log2 < 64 := (Nat.log2_lt hpos.ne').mpr hn
  calc reach n = n * 2 ^ (63 - n.log2) := reach_eq n
    _ ≤ 2 ^ (n.log2 + 1) * 2 ^ (63 - n.log2) := Nat.mul_le_mul_right _ Nat.lt_log2_self.le
    _ = 2 ^ 64 := by rw [← Nat.pow_add]; congr 1; omega

theorem ceilDiv_add_le_iff {n : Nat} (hpos : 0 < n) (x length w : Nat) :
    x ⌈/⌉ n + length ≤ w ↔ x + n * length ≤ n * w := by
  by_cases hw : length ≤ w
  · obtain ⟨w, rfl⟩ := Nat.exists_eq_add_of_le' hw
    rw [Nat.add_le_add_iff_right, ceilDiv_le_iff_le_mul hpos, Nat.mul_add, Nat.add_le_add_iff_right]
  · have hmul : n * w < n * length := Nat.mul_lt_mul_of_pos_left (by omega) hpos
    omega

/-- The accepted words for a number lie one after the other. -/
theorem accepted_and_scaled64_iff {n : Nat} (hpos : 0 < n) (hn : n < UInt64.size) (b : Nat)
    (word : UInt64) : accepted n word = true ∧ scaled64 n word = b ↔
      (b * UInt64.size) ⌈/⌉ n ≤ word.toNat ∧
        word.toNat < (b * UInt64.size) ⌈/⌉ n + 2 ^ (63 - n.log2) := by
  have hreach := reach_le hpos hn
  have hmod := Nat.mod_lt (word.toNat * n) (show 0 < UInt64.size by decide)
  have hsplit := Nat.div_add_mod' (word.toNat * n) UInt64.size
  rw [ceilDiv_le_iff_le_mul hpos, ← Nat.not_le, ceilDiv_add_le_iff hpos, ← reach_eq,
    Nat.mul_comm n, accepted, scaled64, decide_eq_true_iff, Nat.not_le]
  constructor
  · rintro ⟨haccepted, rfl⟩
    omega
  · rintro ⟨hfrom, hto⟩
    -- less than a whole word above `b * size`
    have hb : word.toNat * n / UInt64.size = b :=
      Nat.div_eq_of_lt_le hfrom (by rw [Nat.succ_mul]; omega)
    rw [hb] at hsplit
    exact ⟨by omega, hb⟩

/-- As many words are accepted for a number as for any other. -/
theorem ncard_accepted {n b : Nat} (hb : b < n) (hn : n < UInt64.size) :
    {word : UInt64 | accepted n word = true ∧ scaled64 n word = b}.ncard = 2 ^ (63 - n.log2) := by
  have hpos : 0 < n := Nat.zero_lt_of_lt hb
  have hfits : (b * UInt64.size) ⌈/⌉ n + 2 ^ (63 - n.log2) ≤ UInt64.size := by
    have hnext : (b + 1) * UInt64.size ≤ n * UInt64.size := Nat.mul_le_mul_right _ hb
    rw [ceilDiv_add_le_iff hpos, ← reach_eq]
    have := reach_le hpos hn
    rw [Nat.succ_mul] at hnext
    omega
  simp only [accepted_and_scaled64_iff hpos hn]
  exact ncard_words64 hfits

/-- Where a bound divides the number of words, each number below it is hit by its share. -/
theorem ncard_scaled32 {n share b : Nat} (hshare : n * share = UInt32.size) (hb : b < n) :
    {word : UInt32 | scaled32 n word = b}.ncard = share := by
  have hpos : 0 < share := Nat.pos_of_ne_zero (by rintro rfl; cases hshare)
  have hfits : b * share + share ≤ UInt32.size := by
    rw [← Nat.succ_mul, ← hshare]
    exact Nat.mul_le_mul_right _ hb
  rw [← ncard_words32 hfits]
  congr 1
  ext word
  have hscaled : scaled32 n word = word.toNat / share := by
    rw [scaled32, ← hshare, Nat.mul_comm n, Nat.mul_div_mul_right _ _ (Nat.zero_lt_of_lt hb)]
  rw [Set.mem_ofPred_eq, Set.mem_ofPred_eq, hscaled, Nat.div_eq_iff hpos]
  omega

/-! ### Streams of given words -/

/-- Words that are known beforehand, one for each draw of 32 bits. -/
structure Tape where
  word : Nat → UInt32

namespace Tape

def tail (t : Tape) : Tape := ⟨fun i => t.word (i + 1)⟩

/-- A draw of 64 bits takes two words, of which the first is the low half. -/
instance : WordSource Tape where
  next32 t := (t.word 0, t.tail)
  next64 t := ((t.word 1).toUInt64 <<< 32 ||| (t.word 0).toUInt64, t.tail.tail)

/-- A tape that begins with the halves of `word`. -/
def cons64 (word : UInt64) (t : Tape) : Tape where
  word
    | 0 => word.toUInt32
    | 1 => (word >>> 32).toUInt32
    | i + 2 => t.word i

def cons32 (word : UInt32) (t : Tape) : Tape where
  word
    | 0 => word
    | i + 1 => t.word i

theorem join_halves (word : UInt64) :
    (word >>> 32).toUInt32.toUInt64 <<< 32 ||| word.toUInt32.toUInt64 = word := by
  apply UInt64.toNat.inj
  have hsplit := Nat.div_add_mod' word.toNat (2 ^ 32)
  have hhigh : word.toNat / 2 ^ 32 < 2 ^ 32 := by
    have := word.toNat_lt
    omega
  have hlow : word.toNat % 2 ^ 32 < 2 ^ 32 := Nat.mod_lt _ (by decide)
  have hfits : (word.toNat / 2 ^ 32) <<< 32 < 2 ^ 64 := by
    rw [Nat.shiftLeft_eq]
    omega
  calc ((word >>> 32).toUInt32.toUInt64 <<< 32 ||| word.toUInt32.toUInt64).toNat
      = (word.toNat / 2 ^ 32 % 2 ^ 32) <<< 32 % 2 ^ 64 ||| word.toNat % 2 ^ 32 := by
        simp [Nat.shiftRight_eq_div_pow]
    _ = (word.toNat / 2 ^ 32) <<< 32 + word.toNat % 2 ^ 32 := by
        rw [Nat.mod_eq_of_lt hhigh, Nat.mod_eq_of_lt hfits, Nat.shiftLeft_add_eq_or_of_lt hlow]
    _ = word.toNat := by
        rw [Nat.shiftLeft_eq]
        exact hsplit

theorem next64_cons64 (word : UInt64) (t : Tape) :
    WordSource.next64 (cons64 word t) = (word, t) := by
  exact Prod.ext (join_halves word) rfl

theorem next32_cons32 (word : UInt32) (t : Tape) : WordSource.next32 (cons32 word t) = (word, t) := rfl

end Tape
end MoteBench.Random
