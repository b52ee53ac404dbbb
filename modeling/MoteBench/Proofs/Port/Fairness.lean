import MoteBench.Port.Allocator
import MoteBench.Proofs.Random.Fairness

/-!
Ports are drawn fairly. A word of 64 bits chooses one of as many buckets as there are well-known
ports, and one more; a word of 32 bits chooses a port of the last bucket.
-/
namespace MoteBench.Port

open MoteBench.Random

/-- The bucket that a word chooses: the high half of its product with the number of buckets. -/
def bucket (word : UInt64) : Nat := 25 * word.toNat / 2 ^ 64

/-- Whether a word is accepted, by the low half of that product. -/
def Accepts (word : UInt64) : Prop := 25 * word.toNat % 2 ^ 64 < 25 * 2 ^ 59

instance : DecidablePred Accepts := fun word =>
  inferInstanceAs (Decidable (25 * word.toNat % 2 ^ 64 < 25 * 2 ^ 59))

/-- The port of the last bucket that a word chooses. -/
def ephemeral (word : UInt32) : Nat := 32768 + 32768 * word.toNat / 2 ^ 32

theorem accepted_iff (word : UInt64) : accepted (wellKnown.length + 1) word = true ↔ Accepts word := by
  have hreach : reach (wellKnown.length + 1) = 25 * 2 ^ 59 := by decide
  rw [accepted, decide_eq_true_iff, hreach, Nat.mul_comm]
  exact .rfl

theorem scaled64_eq_bucket (word : UInt64) : scaled64 (wellKnown.length + 1) word = bucket word := by
  rw [scaled64, Nat.mul_comm]
  rfl

theorem bucket_lt (word : UInt64) : bucket word < 25 :=
  scaled64_eq_bucket word ▸ scaled64_lt (by decide) word

theorem ephemeral_eq (word : UInt32) :
    ephemeral word = firstEphemeral.toNat + scaled32 ephemeralCount word := by
  rw [scaled32, Nat.mul_comm]
  rfl

theorem ephemeral_lt (word : UInt32) : ephemeral word < 65536 := by
  have hword : scaled32 ephemeralCount word < ephemeralCount := scaled32_lt (by decide) word
  have hcount : firstEphemeral.toNat + ephemeralCount = 65536 := by decide
  rw [ephemeral_eq]
  omega

theorem isAllocatable_ephemeral (word : UInt32) :
    isAllocatable (.ofNat (ephemeral word)) = true := by
  have hfrom : 32768 ≤ ephemeral word := Nat.le_add_right ..
  have hto := ephemeral_lt word
  have hport : (UInt16.ofNat (ephemeral word)).toNat = ephemeral word :=
    UInt16.toNat_ofNat_of_lt' hto
  rw [isAllocatable, Bool.or_eq_true, Bool.and_eq_true, decide_eq_true_iff, decide_eq_true_iff,
    UInt16.le_iff_toNat_le, UInt16.le_iff_toNat_le, hport]
  exact .inr ⟨hfrom, Nat.le_of_lt_succ hto⟩

theorem firstEphemeral_add (word : UInt32) :
    firstEphemeral + .ofNat (scaled32 ephemeralCount word) = .ofNat (ephemeral word) := by
  rw [ephemeral_eq, UInt16.ofNat_add, UInt16.ofNat_toNat]

section Draw

variable {G : Type} [WordSource G]

/-- A bucket is drawn from `g` with the word that comes after `rejected` others. -/
structure Settles (g : G) (rejected : Nat) : Prop where
  rejects : ∀ i < rejected, ¬ Accepts (word64 g i)
  accepts : Accepts (word64 g rejected)

variable {a : Allocator G} {rejected : Nat}

theorem Settles.drawBelow_eq {patience : Nat} {g : G} (h : Settles g rejected)
    (hpatience : rejected ≤ patience) : drawBelow (wellKnown.length + 1) patience g =
      (bucket (word64 g rejected), skip64 g (rejected + 1)) := by
  have hends : EndsAfter (wellKnown.length + 1) g rejected := by
    refine ⟨fun i hi => ?_, (accepted_iff _).mpr h.accepts⟩
    rw [← Bool.not_eq_true, accepted_iff]
    exact h.rejects i hi
  rw [drawBelow_of_endsAfter hends hpatience, scaled64_eq_bucket]

theorem Settles.allocate_of_wellKnown (h : Settles a.source rejected)
    (hpatience : rejected ≤ a.patience) {port : Port}
    (hport : wellKnown[bucket (word64 a.source rejected)]? = some port) (role : String) :
    allocate a role =
      (port, { a with source := skip64 a.source (rejected + 1) }, [.portDrawn role port]) := by
  simp only [allocate, draw, h.drawBelow_eq hpatience, hport]

theorem Settles.allocate_of_last (h : Settles a.source rejected) (hpatience : rejected ≤ a.patience)
    (hlast : bucket (word64 a.source rejected) = 24) (role : String) :
    let last := WordSource.next32 (skip64 a.source (rejected + 1))
    allocate a role = (.ofNat (ephemeral last.1), { a with source := last.2 },
      [.portDrawn role (.ofNat (ephemeral last.1))]) := by
  have hnone : wellKnown[24]? = none := rfl
  simp only [allocate, draw, h.drawBelow_eq hpatience, hlast, hnone, firstEphemeral_add]

theorem Settles.isAllocatable_allocate (h : Settles a.source rejected)
    (hpatience : rejected ≤ a.patience) (role : String) :
    isAllocatable (allocate a role).1 = true := by
  cases hport : wellKnown[bucket (word64 a.source rejected)]? with
  | some port =>
    have hmem := List.contains_iff_mem.mpr (List.mem_of_getElem? hport)
    rw [h.allocate_of_wellKnown hpatience hport role]
    simp only [isAllocatable, hmem, Bool.true_or]
  | none =>
    have hlength : 24 ≤ bucket (word64 a.source rejected) := List.getElem?_eq_none_iff.mp hport
    have hlast := Nat.le_antisymm (Nat.le_of_lt_succ (bucket_lt _)) hlength
    rw [h.allocate_of_last hpatience hlast role]
    exact isAllocatable_ephemeral _

/-- What an allocator gives when a bucket is drawn after `rejected` words. -/
structure Gives (a : Allocator G) (rejected : Nat) : Prop where
  /-- No word but those is taken if the bucket is a well-known port. -/
  wellKnown : ∀ port, wellKnown[bucket (word64 a.source rejected)]? = some port → ∀ role,
    allocate a role =
      (port, { a with source := skip64 a.source (rejected + 1) }, [.portDrawn role port])
  /-- One word more is taken for a port of the last bucket. -/
  ephemeral : bucket (word64 a.source rejected) = 24 → ∀ role,
    let last := WordSource.next32 (skip64 a.source (rejected + 1))
    allocate a role = (.ofNat (ephemeral last.1), { a with source := last.2 },
      [.portDrawn role (.ofNat (ephemeral last.1))])
  bucket_le : bucket (word64 a.source rejected) ≤ 24
  allocatable : ∀ role, isAllocatable (allocate a role).1 = true
  ne_neutral : ∀ role, (allocate a role).1 ≠ neutral

theorem Settles.gives (h : Settles a.source rejected) (hpatience : rejected ≤ a.patience) :
    Gives a rejected where
  wellKnown _ hport role := h.allocate_of_wellKnown hpatience hport role
  ephemeral hlast role := h.allocate_of_last hpatience hlast role
  bucket_le := Nat.le_of_lt_succ (bucket_lt _)
  allocatable role := h.isAllocatable_allocate hpatience role
  ne_neutral role hneutral := by
    have hallocatable := h.isAllocatable_allocate hpatience role
    rw [hneutral, not_isAllocatable_neutral] at hallocatable
    cases hallocatable

end Draw

/-- As many words are accepted for each bucket. -/
theorem ncard_bucket {b : Nat} (hb : b < 25) :
    {word | Accepts word ∧ bucket word = b}.ncard = 2 ^ 59 := by
  have hlength : b < wellKnown.length + 1 := hb
  have hlog : 63 - Nat.log2 (wellKnown.length + 1) = 59 := by decide
  simp only [← accepted_iff, ← scaled64_eq_bucket]
  rw [ncard_accepted hlength (by decide), hlog]

theorem ncard_ephemeral {port : Port} (hport : firstEphemeral ≤ port) :
    {word | ephemeral word = port.toNat}.ncard = 2 ^ 17 := by
  have hfrom := UInt16.le_iff_toNat_le.mp hport
  have hto := port.toNat_lt
  have hcount : firstEphemeral.toNat + ephemeralCount = 65536 := by decide
  have hshare : ephemeralCount * 2 ^ 17 = UInt32.size := by decide
  have hplace : port.toNat - firstEphemeral.toNat < ephemeralCount := by omega
  rw [← ncard_scaled32 hshare hplace]
  congr 1
  ext word
  rw [Set.mem_ofPred_eq, Set.mem_ofPred_eq, ephemeral_eq]
  omega

theorem exists_bucket {b : Nat} (hb : b < 25) : ∃ word, Accepts word ∧ bucket word = b := by
  have hsome : {word | Accepts word ∧ bucket word = b}.ncard ≠ 0 := by
    rw [ncard_bucket hb]
    decide
  exact Set.nonempty_of_ncard_ne_zero hsome

theorem exists_ephemeral {port : Port} (hport : firstEphemeral ≤ port) :
    ∃ word, ephemeral word = port.toNat := by
  have hsome : {word | ephemeral word = port.toNat}.ncard ≠ 0 := by
    rw [ncard_ephemeral hport]
    decide
  exact Set.nonempty_of_ncard_ne_zero hsome

theorem word64_cons64 (first : UInt64) (rest : Tape) : word64 (rest.cons64 first) 0 = first :=
  congrArg Prod.fst (Tape.next64_cons64 first rest)

theorem settles_cons64 {first : UInt64} (h : Accepts first) (rest : Tape) :
    Settles (rest.cons64 first) 0 :=
  ⟨nofun, by rwa [word64_cons64]⟩

/-- Every port that may be drawn is drawn from some words. -/
theorem exists_tape {port : Port} (hport : isAllocatable port = true) :
    ∃ tape : Tape, Settles tape 0 ∧ ∀ patience role,
      (allocate { source := tape, patience } role).1 = port := by
  rw [isAllocatable, Bool.or_eq_true, Bool.and_eq_true, decide_eq_true_iff] at hport
  rcases hport with hknown | ⟨hephemeral, -⟩
  · obtain ⟨b, hb⟩ := List.getElem?_of_mem (List.contains_iff_mem.mp hknown)
    have hlength : b < 24 := (List.getElem?_eq_some_iff.mp hb).1
    obtain ⟨first, haccepts, rfl⟩ := exists_bucket (Nat.lt_succ_of_lt hlength)
    let tape : Tape := .cons64 first ⟨fun _ => 0⟩
    have hsettles : Settles tape 0 := settles_cons64 haccepts _
    refine ⟨tape, hsettles, fun patience role => ?_⟩
    rw [hsettles.allocate_of_wellKnown (Nat.zero_le patience) (by rwa [word64_cons64]) role]
  · obtain ⟨first, haccepts, hlast⟩ := exists_bucket (show 24 < 25 by decide)
    obtain ⟨second, hsecond⟩ := exists_ephemeral hephemeral
    let tape : Tape := .cons64 first (.cons32 second ⟨fun _ => 0⟩)
    have hsettles : Settles tape 0 := settles_cons64 haccepts _
    refine ⟨tape, hsettles, fun patience role => ?_⟩
    have hrest : skip64 tape 1 = .cons32 second ⟨fun _ => 0⟩ :=
      congrArg Prod.snd (Tape.next64_cons64 first _)
    rw [hsettles.allocate_of_last (Nat.zero_le patience) (by rwa [word64_cons64]) role]
    simp only [hrest, Tape.next32_cons32, hsecond, UInt16.ofNat_toNat]

/-- How allocators draw ports, from words of any source `G`. -/
structure DrawsFairly (G : Type) [WordSource G] : Prop where
  /-- However many words are rejected first, if only the patience of the allocator reaches that far. -/
  gives : ∀ (a : Allocator G) (rejected : Nat), Settles a.source rejected →
    rejected ≤ a.patience → Gives a rejected
  /-- No port is left out. -/
  reached : ∀ port, isAllocatable port = true → ∃ tape : Tape, Settles tape 0 ∧
    ∀ patience role, (allocate { source := tape, patience } role).1 = port
  buckets : ∀ b ≤ 24, {word | Accepts word ∧ bucket word = b}.ncard = 2 ^ 59
  ephemerals : ∀ port, firstEphemeral ≤ port → {word | ephemeral word = port.toNat}.ncard = 2 ^ 17

/-- Allocators draw fairly, whatever source of words they have. -/
theorem drawsFairly (G : Type) [WordSource G] : DrawsFairly G where
  gives _ _ hsettles hpatience := hsettles.gives hpatience
  reached _ hport := exists_tape hport
  buckets _ hb := ncard_bucket (Nat.lt_succ_of_le hb)
  ephemerals _ hport := ncard_ephemeral hport

/-- The last port of all, after a word that is rejected. -/
theorem drawsFairly_lastEphemeral :
    let blank : Tape := ⟨fun _ => 0⟩
    let tape := ((blank.cons32 0xffffffff).cons64 0xf800000000000000).cons64 0x0900000000000000
    Settles tape 1 ∧ ∀ role, allocate { source := tape } role =
      (lastEphemeral, { source := blank }, [.portDrawn role lastEphemeral]) := by
  intro blank tape
  have hsettles : Settles tape 1 := by
    refine ⟨fun i hi => ?_, by decide +kernel⟩
    obtain rfl : i = 0 := by omega
    decide +kernel
  have hgives := (drawsFairly Tape).gives { source := tape } 1 hsettles (by decide)
  have hlast : WordSource.next32 (skip64 tape 2) = (0xffffffff, blank) := rfl
  have hport : UInt16.ofNat (ephemeral 0xffffffff) = lastEphemeral := by decide +kernel
  have hallocate := hgives.ephemeral (by decide +kernel)
  simp only [hlast, hport] at hallocate
  exact ⟨hsettles, hallocate⟩

end MoteBench.Port
