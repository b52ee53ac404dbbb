import Mathlib.Algebra.Ring.Nat
import MoteBench.Proofs.Memory.Guard

/-!
Raw accesses in machine words. An address is a word of 64 bits and a length a word of `w` bits; a
difference, a sum or a conversion that does not come out is refused, and a slice that reaches beyond
its bytes would end the program. None of this is to be seen from outside: an access reaches exactly
the bytes that are there, wherever addresses and lengths lie in their words.
-/
namespace MoteBench.Memory

namespace Word

variable {v w : Nat}

/-- The difference, unless it is negative. -/
def sub? (x y : BitVec w) : Option (BitVec w) := if x.usubOverflow y then none else some (x - y)

/-- The sum, unless it is too large. -/
def add? (x y : BitVec w) : Option (BitVec w) := if x.uaddOverflow y then none else some (x + y)

/-- The same number in a word of `w` bits, unless it is too large. -/
def resize? (w : Nat) (x : BitVec v) : Option (BitVec w) :=
  if x.toNat < 2 ^ w then some (x.setWidth w) else none

theorem toNat_word {n : Nat} (h : n < 2 ^ w) : (BitVec.ofNat w n).toNat = n := by
  rw [BitVec.toNat_ofNat, Nat.mod_eq_of_lt h]

/-! An operation succeeds exactly if its result is right without a bound. -/

theorem sub?_eq_some_iff {x y z : BitVec w} : sub? x y = some z ↔ y.toNat + z.toNat = x.toNat := by
  unfold sub?
  split
  · rename_i hnegative
    have : x.toNat < y.toNat := of_decide_eq_true hnegative
    simp only [reduceCtorEq, false_iff]
    omega
  · rename_i hfits
    have hsub := BitVec.toNat_sub_of_not_usubOverflow hfits
    have : ¬ x.toNat < y.toNat := fun hlt => hfits (decide_eq_true hlt)
    rw [Option.some.injEq, ← BitVec.toNat_inj, hsub]
    omega

theorem add?_eq_some_iff {x y z : BitVec w} : add? x y = some z ↔ z.toNat = x.toNat + y.toNat := by
  have hz := z.isLt
  unfold add?
  split
  · rename_i hlarge
    have : x.toNat + y.toNat ≥ 2 ^ w := of_decide_eq_true hlarge
    simp only [reduceCtorEq, false_iff]
    omega
  · rename_i hfits
    rw [Option.some.injEq, ← BitVec.toNat_inj, BitVec.toNat_add_of_not_uaddOverflow hfits]
    exact eq_comm

theorem resize?_eq_some_iff {x : BitVec v} {z : BitVec w} :
    resize? w x = some z ↔ z.toNat = x.toNat := by
  have hz := z.isLt
  unfold resize?
  split
  · rename_i hfits
    rw [Option.some.injEq, ← BitVec.toNat_inj, BitVec.toNat_setWidth, Nat.mod_eq_of_lt hfits]
    exact eq_comm
  · simp only [reduceCtorEq, false_iff]
    omega

end Word

namespace Ram

variable {w : Nat} {ram : Ram}

/-- Begin and end of the bytes from `address` on, if all of them are there. -/
def range? (ram : Ram) (address : BitVec 64) (count : BitVec w) : Option (BitVec w × BitVec w) := do
  let offset ← Word.sub? address (BitVec.ofNat 64 base)
  let start ← Word.resize? w offset
  let stop ← Word.add? start count
  if BitVec.ofNat w ram.bytes.length < stop then none else some (start, stop)

theorem range?_eq_some_iff (h : ram.bytes.length < 2 ^ w) {address : BitVec 64}
    {count start stop : BitVec w} : ram.range? address count = some (start, stop) ↔
      address.toNat = base + start.toNat ∧ stop.toNat = start.toNat + count.toNat ∧
        stop.toNat ≤ ram.bytes.length := by
  have hbase : (BitVec.ofNat 64 base).toNat = base := rfl
  have hlength := Word.toNat_word h
  unfold range?
  simp only [Option.bind_eq_bind, Option.bind_eq_some_iff, Word.sub?_eq_some_iff,
    Word.resize?_eq_some_iff, Word.add?_eq_some_iff, BitVec.lt_def, hbase, hlength]
  constructor
  · rintro ⟨offset, hoffset, start', hstart, stop', hstop, heq⟩
    split at heq
    · cases heq
    · obtain ⟨rfl, rfl⟩ := Prod.mk.inj (Option.some.inj heq)
      omega
  · rintro ⟨haddress, hstop, hfits⟩
    have hword := address.isLt
    have hoffset : (BitVec.ofNat 64 start.toNat).toNat = start.toNat :=
      Word.toNat_word (by omega)
    exact ⟨BitVec.ofNat 64 start.toNat, by rw [hoffset, haddress], start, hoffset.symm, stop, hstop,
      if_neg (Nat.not_lt_of_le hfits)⟩

/-- Words find the place that numbers without a bound find. -/
theorem exists_range? (h : ram.bytes.length < 2 ^ w) {address : BitVec 64} {count place : Nat}
    (hplace : ram.offset? address.toNat count = some place) :
    ∃ start stop : BitVec w, ram.range? address (BitVec.ofNat w count) = some (start, stop) ∧
      start.toNat = place ∧ stop.toNat = place + count := by
  obtain ⟨haddress, hfits⟩ := offset?_eq_some_iff.mp hplace
  have hstart : (BitVec.ofNat w place).toNat = place := Word.toNat_word (by omega)
  have hcount : (BitVec.ofNat w count).toNat = count := Word.toNat_word (by omega)
  have hstop := Word.toNat_word (Nat.lt_of_le_of_lt hfits h)
  refine ⟨BitVec.ofNat w place, BitVec.ofNat w (place + count), ?_, hstart, hstop⟩
  rw [range?_eq_some_iff h, hstart, hcount, hstop]
  exact ⟨haddress, rfl, hfits⟩

/-- Nor do they find one where there is none. -/
theorem range?_eq_none (h : ram.bytes.length < 2 ^ w) {address : BitVec 64} {count : Nat}
    (hcount : count < 2 ^ w) (hnone : ram.offset? address.toNat count = none) :
    ram.range? address (BitVec.ofNat w count) = none := by
  refine Option.eq_none_iff_forall_ne_some.mpr fun found hfound => ?_
  obtain ⟨haddress, hstop, hfits⟩ := (range?_eq_some_iff h).mp hfound
  rw [Word.toNat_word hcount] at hstop
  have hsome := offset?_eq_some_iff.mpr ⟨haddress, hstop ▸ hfits⟩
  cases hnone.symm.trans hsome

/-- The bytes from one place up to another, if there are such. -/
def slice? (bytes : List UInt8) (start stop : Nat) : Option (List UInt8) :=
  if start ≤ stop ∧ stop ≤ bytes.length then some ((bytes.drop start).take (stop - start)) else none

/-- What `target` is once it is overwritten, if `source` is just as long. -/
def copy? (source target : List UInt8) : Option (List UInt8) :=
  if source.length = target.length then some source else none

/-- Fills a buffer, or leaves it as it is. -/
def loadInto (w : Nat) (ram : Ram) (address : BitVec 64) (buffer : List UInt8) :
    Option (Except AccessError Unit × List UInt8) :=
  match ram.range? address (BitVec.ofNat w buffer.length) with
  | none => some (.error (.outOfBounds address.toNat buffer.length), buffer)
  | some (start, stop) => do
    let window ← slice? ram.bytes start.toNat stop.toNat
    let filled ← copy? window buffer
    return (.ok (), filled)

/-- Overwrites bytes, or leaves all of them as they are. -/
def storeFrom (w : Nat) (ram : Ram) (address : BitVec 64) (bs : List UInt8) :
    Option (Except AccessError Unit × Ram) :=
  match ram.range? address (BitVec.ofNat w bs.length) with
  | none => some (.error (.outOfBounds address.toNat bs.length), ram)
  | some (start, stop) => do
    let window ← slice? ram.bytes start.toNat stop.toNat
    let filled ← copy? bs window
    return (.ok (),
      { ram with bytes := ram.bytes.take start.toNat ++ filled ++ ram.bytes.drop stop.toNat })

theorem slice?_eq_some {bytes : List UInt8} {start count : Nat}
    (h : start + count ≤ bytes.length) :
    slice? bytes start (start + count) = some ((bytes.drop start).take count) := by
  rw [slice?, if_pos ⟨Nat.le_add_right start count, h⟩, Nat.add_sub_cancel_left]

theorem length_window {bytes : List UInt8} {start count : Nat} (h : start + count ≤ bytes.length) :
    ((bytes.drop start).take count).length = count := by
  rw [List.length_take, List.length_drop]
  omega

/-- A buffer after a load into it. -/
def filled (buffer : List UInt8) : Except AccessError (List UInt8) → Except AccessError Unit × List UInt8
  | .ok bs => (.ok (), bs)
  | .error cause => (.error cause, buffer)

/-- A load in machine words comes to what a load comes to, and does not end the program. -/
theorem loadInto_eq (h : ram.bytes.length < 2 ^ w) (address : BitVec 64) {buffer : List UInt8}
    (hbuffer : buffer.length < 2 ^ w) : ram.loadInto w address buffer =
      some (filled buffer (ram.load address.toNat buffer.length)) := by
  rw [loadInto, load]
  cases hplace : ram.offset? address.toNat buffer.length with
  | none =>
    rw [range?_eq_none h hbuffer hplace]
    rfl
  | some place =>
    obtain ⟨start, stop, hrange, rfl, hstop⟩ := exists_range? h hplace
    have hfits := (offset?_eq_some_iff.mp hplace).2
    rw [hrange]
    dsimp only
    rw [hstop, slice?_eq_some hfits, Option.bind_eq_bind, Option.bind_some, copy?,
      if_pos (length_window hfits)]
    rfl

theorem storeFrom_eq (h : ram.bytes.length < 2 ^ w) (address : BitVec 64) {bs : List UInt8}
    (hbs : bs.length < 2 ^ w) :
    ram.storeFrom w address bs = some (ram.store address.toNat bs) := by
  rw [storeFrom, store]
  cases hplace : ram.offset? address.toNat bs.length with
  | none => rw [range?_eq_none h hbs hplace]
  | some place =>
    obtain ⟨start, stop, hrange, rfl, hstop⟩ := exists_range? h hplace
    have hfits := (offset?_eq_some_iff.mp hplace).2
    rw [hrange]
    dsimp only
    rw [hstop, slice?_eq_some hfits, Option.bind_eq_bind, Option.bind_some, copy?,
      if_pos (length_window hfits).symm]
    rfl

/-! What there is to reach. -/

/-- The `count` bytes from `address` on are all there. -/
def Holds (ram : Ram) (address count : Nat) : Prop :=
  base ≤ address ∧ address - base + count ≤ ram.bytes.length

theorem offset?_of_holds {address count : Nat} (h : ram.Holds address count) :
    ram.offset? address count = some (address - base) := if_pos h

theorem offset?_of_not_holds {address count : Nat} (h : ¬ ram.Holds address count) :
    ram.offset? address count = none := if_neg h

theorem load_of_holds {address count : Nat} (h : ram.Holds address count) :
    ram.load address count = .ok ((ram.bytes.drop (address - base)).take count) := by
  rw [load, offset?_of_holds h]

theorem load_of_not_holds {address count : Nat} (h : ¬ ram.Holds address count) :
    ram.load address count = .error (.outOfBounds address count) := by
  rw [load, offset?_of_not_holds h]

theorem store_of_holds {address : Nat} {bs : List UInt8} (h : ram.Holds address bs.length) :
    (ram.store address bs).1 = .ok () := by
  rw [store, offset?_of_holds h]

theorem store_of_not_holds {address : Nat} {bs : List UInt8} (h : ¬ ram.Holds address bs.length) :
    ram.store address bs = (.error (.outOfBounds address bs.length), ram) := by
  rw [store, offset?_of_not_holds h]

theorem order_store (ram : Ram) (address : Nat) (bs : List UInt8) :
    (ram.store address bs).2.order = ram.order := by
  unfold store
  split <;> rfl

/-- A window shows the bytes behind it. -/
theorem getElem?_window {address count i : Nat} (h : ram.Holds address count) (hi : i < count) :
    ((ram.bytes.drop (address - base)).take count)[i]? = ram.byte? (address + i) := by
  have hbase : base ≤ address := h.1
  have hindex : address - base + i = address + i - base := by omega
  rw [List.getElem?_take, if_pos hi, List.getElem?_drop, hindex, byte?,
    if_pos (Nat.le_add_right_of_le hbase)]

/-- After a store a window shows what was stored, and beside that what it showed before. -/
theorem getElem?_window_store {address address' count i : Nat} {bs : List UInt8}
    (h : ram.Holds address bs.length) (h' : ram.Holds address' count) (hi : i < count) :
    (((ram.store address bs).2.bytes.drop (address' - base)).take count)[i]? =
      if address ≤ address' + i ∧ address' + i < address + bs.length then
        bs[address' + i - address]?
      else ((ram.bytes.drop (address' - base)).take count)[i]? := by
  have hafter : (ram.store address bs).2.Holds address' count := by
    rw [Holds, length_store]
    exact h'
  rw [getElem?_window hafter hi, getElem?_window h' hi]
  exact byte?_store (Prod.ext (store_of_holds h) rfl) (address' + i)

/-- How raw accesses go, when a length is a word of `w` bits. None of them ends the program. -/
structure Addressed (w : Nat) (ram : Ram) : Prop where
  load : ∀ (address : BitVec 64) (buffer : List UInt8), buffer.length < 2 ^ w →
    ram.loadInto w address buffer = some (filled buffer (ram.load address.toNat buffer.length))
  store : ∀ (address : BitVec 64) (bs : List UInt8), bs.length < 2 ^ w →
    ram.storeFrom w address bs = some (ram.store address.toNat bs)
  loaded : ∀ (address : BitVec 64) (buffer : List UInt8), buffer.length < 2 ^ w →
    ram.Holds address.toNat buffer.length →
    ram.loadInto w address buffer =
      some (.ok (), (ram.bytes.drop (address.toNat - base)).take buffer.length)
  notLoaded : ∀ (address : BitVec 64) (buffer : List UInt8), buffer.length < 2 ^ w →
    ¬ ram.Holds address.toNat buffer.length →
    ram.loadInto w address buffer =
      some (.error (.outOfBounds address.toNat buffer.length), buffer)
  /-- All variables and the number of bytes stay, and every window shows the new bytes in their place
  and the old ones beside them. -/
  stored : ∀ (address : BitVec 64) (bs : List UInt8), bs.length < 2 ^ w →
    ram.Holds address.toNat bs.length →
    ∃ ram', ram.storeFrom w address bs = some (.ok (), ram') ∧ ram'.symbols = ram.symbols ∧
      ram'.order = ram.order ∧ ram'.bytes.length = ram.bytes.length ∧
      ∀ (address' : BitVec 64) (buffer : List UInt8), buffer.length < 2 ^ w →
        ram.Holds address'.toNat buffer.length →
        ∃ old new, ram.loadInto w address' buffer = some (.ok (), old) ∧
          ram'.loadInto w address' buffer = some (.ok (), new) ∧ new.length = buffer.length ∧
          ∀ i < buffer.length, new[i]? =
            if address.toNat ≤ address'.toNat + i ∧ address'.toNat + i < address.toNat + bs.length
            then bs[address'.toNat + i - address.toNat]? else old[i]?
  notStored : ∀ (address : BitVec 64) (bs : List UInt8), bs.length < 2 ^ w →
    ¬ ram.Holds address.toNat bs.length →
    ram.storeFrom w address bs = some (.error (.outOfBounds address.toNat bs.length), ram)

/-- Raw accesses reach exactly the bytes that are there, at every address and with every length. -/
theorem addressed (w : Nat) (ram : Ram) (h : ram.bytes.length < 2 ^ w) : Addressed w ram := by
  constructor
  case load => exact fun address buffer hbuffer => loadInto_eq h address hbuffer
  case store => exact fun address bs hbs => storeFrom_eq h address hbs
  case loaded =>
    intro address buffer hbuffer hholds
    rw [loadInto_eq h address hbuffer, load_of_holds hholds]
    rfl
  case notLoaded =>
    intro address buffer hbuffer hbeyond
    rw [loadInto_eq h address hbuffer, load_of_not_holds hbeyond]
    rfl
  case stored =>
    intro address bs hbs hholds
    have hstored : ram.store address.toNat bs = (.ok (), (ram.store address.toNat bs).2) :=
      Prod.ext (store_of_holds hholds) rfl
    have hlength := length_store ram address.toNat bs
    refine ⟨(ram.store address.toNat bs).2, (storeFrom_eq h address hbs).trans (congrArg some hstored),
      symbols_store ram address.toNat bs, order_store ram address.toNat bs, hlength, ?_⟩
    intro address' buffer hbuffer hholds'
    have hafter : (ram.store address.toNat bs).2.Holds address'.toNat buffer.length := by
      rw [Holds, hlength]
      exact hholds'
    refine ⟨_, _, ?_, ?_, ?_, fun i hi => getElem?_window_store hholds hholds' hi⟩
    · rw [loadInto_eq h address' hbuffer, load_of_holds hholds']
      rfl
    · rw [loadInto_eq (hlength.symm ▸ h) address' hbuffer, load_of_holds hafter]
      rfl
    · exact length_window hafter.2
  case notStored =>
    intro address bs hbs hbeyond
    rw [storeFrom_eq h address hbs, store_of_not_holds hbeyond]

/-- No byte behind the last one can be reached, and none by going around the end of the addresses. -/
theorem addressed_at_the_edges :
    let ram : Ram := { bytes := [1, 2, 3, 4] }
    ram.bytes.length < 2 ^ 64 ∧ Addressed 64 ram ∧
      ram.storeFrom 64 (BitVec.ofNat 64 (base + 2)) [8, 9] =
        some (.ok (), { bytes := [1, 2, 8, 9] }) ∧
      ram.storeFrom 64 (BitVec.ofNat 64 (base + 3)) [8, 9] =
        some (.error (.outOfBounds (base + 3) 2), ram) ∧
      ram.loadInto 64 (BitVec.ofNat 64 (base + 4)) [] = some (.ok (), []) ∧
      ram.loadInto 64 (BitVec.allOnes 64) [0, 0] =
        some (.error (.outOfBounds (2 ^ 64 - 1) 2), [0, 0]) := by
  intro ram
  have hfits : ram.bytes.length < 2 ^ 64 := by decide
  exact ⟨hfits, addressed 64 ram hfits, rfl, rfl, rfl, rfl⟩

end Ram

end MoteBench.Memory
