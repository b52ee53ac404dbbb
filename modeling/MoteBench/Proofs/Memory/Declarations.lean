import MoteBench.Proofs.Memory.Layout

/-!
How declarations fill a memory. Each variable has bytes of its own at a multiple of its size, and all
that lies between variables is one blank byte in front of some that are two bytes wide. What was
declared stays where it is.
-/
namespace MoteBench.Memory

def Symbol.Covers (s : Symbol) (address : Nat) : Prop :=
  s.address ≤ address ∧ address < s.address + s.size

namespace Ram

/-- Declares variables one after the other. -/
def defineAll (ram : Ram) (declarations : List (String × Width)) : Ram :=
  declarations.foldl (fun ram d => (ram.define d.1 d.2).2) ram

variable {ram : Ram} {name name' : String} {symbol symbol' : Symbol} {width : Width}

theorem padding_le_one (ram : Ram) (width : Width) : ram.padding width.bytes ≤ 1 := by
  cases width <;> simp only [padding, Width.bytes] <;> omega

theorem padding_bool8 (ram : Ram) : ram.padding Width.bool8.bytes = 0 :=
  Nat.mod_one _

/-- The next variable is aligned. -/
theorem bytes_dvd_padded (ram : Ram) (width : Width) :
    width.bytes ∣ base + ram.bytes.length + ram.padding width.bytes := by
  cases width <;> simp only [padding, Width.bytes, base] <;> omega

/-- Bytes are added, and none is changed. -/
theorem bytes_prefix_define (ram : Ram) (name : String) (width : Width) :
    ram.bytes <+: (ram.define name width).2.bytes := by
  cases h : ram.symbol? name with
  | some symbol => simp [define_of_some h]
  | none => simp [define_of_none h]

theorem symbol?_define_self (ram : Ram) (name : String) (width : Width) :
    (ram.define name width).2.symbol? name = some (ram.define name width).1 := by
  cases h : ram.symbol? name with
  | some symbol => rw [define_of_some h, h]
  | none =>
    rw [define_of_none h]
    have hnone : ram.symbols.lookup name = none := h
    simp [symbol?, List.lookup_append, hnone]

theorem symbol?_define_other (ram : Ram) (hne : name' ≠ name) (width : Width) :
    (ram.define name width).2.symbol? name' = ram.symbol? name' := by
  cases h : ram.symbol? name with
  | some symbol => rw [define_of_some h]
  | none =>
    have hkey : (name' == name) = false := beq_false_of_ne hne
    rw [define_of_none h]
    simp [symbol?, List.lookup_append, List.lookup_cons, hkey]

/-- A variable keeps its place whatever is declared after it. -/
theorem symbol?_define_of_some (h : ram.symbol? name' = some symbol) (name : String)
    (width : Width) : (ram.define name width).2.symbol? name' = some symbol := by
  by_cases hname : name' = name
  · subst hname
    rw [define_of_some h, h]
  · rw [symbol?_define_other ram hname, h]

theorem symbol?_defineAll_of_some (h : ram.symbol? name = some symbol)
    (declarations : List (String × Width)) :
    (ram.defineAll declarations).symbol? name = some symbol := by
  induction declarations generalizing ram with
  | nil => exact h
  | cons d rest ih => exact ih (symbol?_define_of_some h d.1 d.2)

theorem symbol?_defineAll_other (ram : Ram) {declarations : List (String × Width)}
    (h : ∀ d ∈ declarations, name ≠ d.1) :
    (ram.defineAll declarations).symbol? name = ram.symbol? name := by
  induction declarations generalizing ram with
  | nil => rfl
  | cons d rest ih =>
    obtain ⟨hd, hrest⟩ := List.forall_mem_cons.mp h
    exact (ih _ hrest).trans (symbol?_define_other ram hd d.2)

theorem bytes_prefix_defineAll (ram : Ram) (declarations : List (String × Width)) :
    ram.bytes <+: (ram.defineAll declarations).bytes := by
  induction declarations generalizing ram with
  | nil => exact List.prefix_rfl
  | cons d rest ih => exact (bytes_prefix_define ram d.1 d.2).trans (ih _)

/-- The byte at `place` belongs to a variable, or lies in front of one that is two bytes wide. -/
def Filled (ram : Ram) (place : Nat) : Prop :=
  ∃ name symbol, ram.symbol? name = some symbol ∧
    (symbol.Covers (base + place) ∨ symbol.size = 2 ∧ symbol.address = base + place + 1)

theorem Filled.define {place : Nat} (h : ram.Filled place) (name : String) (width : Width) :
    (ram.define name width).2.Filled place := by
  obtain ⟨name', symbol, hs, hplace⟩ := h
  exact ⟨name', symbol, symbol?_define_of_some hs name width, hplace⟩

/-- A memory that holds variables as they were declared, and nothing was stored in it since. -/
structure Packed (ram : Ram) : Prop extends ram.LaidOut where
  aligned : ∀ entry ∈ ram.symbols, entry.2.size ∣ entry.2.address
  filled : ∀ place < ram.bytes.length, ram.Filled place
  blank : ∀ b ∈ ram.bytes, b = 0

theorem packed_empty (order : ByteOrder) : Packed { order } :=
  ⟨laidOut_empty order, by simp, by simp, by simp⟩

theorem Packed.define (h : ram.Packed) (name : String) (width : Width) :
    (ram.define name width).2.Packed := by
  cases hs : ram.symbol? name with
  | some symbol =>
    rw [define_of_some hs]
    exact h
  | none =>
    have hgap := ram.padding_le_one width
    refine ⟨h.toLaidOut.define name width, fun entry he => ?aligned, fun place hplace => ?filled,
      fun b hb => ?blank⟩
    case aligned =>
      rw [define_of_none hs] at he
      rcases List.mem_append.mp he with he | he
      · exact h.aligned entry he
      · obtain rfl := List.mem_singleton.mp he
        exact bytes_dvd_padded ram width
    case filled =>
      by_cases hold : place < ram.bytes.length
      · exact (h.filled place hold).define name width
      · -- a byte is skipped only in front of a variable of two bytes
        have hskip : ram.padding width.bytes = 1 → width.bytes = 2 := by
          cases width with
          | bool8 => simp [padding_bool8]
          | int16 => exact fun _ => rfl
        refine ⟨name, _, symbol?_define_self ram name width, ?_⟩
        rw [define_of_none hs] at hplace ⊢
        simp only [List.length_append, List.length_replicate] at hplace
        simp only [Symbol.Covers]
        omega
    case blank =>
      rw [define_of_none hs] at hb
      rcases List.mem_append.mp hb with hb | hb
      · exact h.blank b hb
      · exact List.eq_of_mem_replicate hb

theorem Packed.defineAll (h : ram.Packed) (declarations : List (String × Width)) :
    (ram.defineAll declarations).Packed := by
  induction declarations generalizing ram with
  | nil => exact h
  | cons d rest ih => exact ih (h.define d.1 d.2)

/-- An empty memory in which variables are declared. -/
def ofDeclarations (order : ByteOrder) (declarations : List (String × Width)) : Ram :=
  defineAll { order } declarations

theorem packed_ofDeclarations (order : ByteOrder) (declarations : List (String × Width)) :
    (ofDeclarations order declarations).Packed :=
  (packed_empty order).defineAll declarations

theorem ofDeclarations_append (order : ByteOrder) (front back : List (String × Width)) :
    ofDeclarations order (front ++ back) = (ofDeclarations order front).defineAll back :=
  List.foldl_append

theorem Packed.disjoint (h : ram.Packed) (hne : name ≠ name') (hs : ram.symbol? name = some symbol)
    (hs' : ram.symbol? name' = some symbol') {address : Nat} (hc : symbol.Covers address) :
    ¬ symbol'.Covers address := by
  intro hc'
  have happart := h.symbols_apart hs hs' hne
  simp only [Symbol.Apart, Symbol.Covers] at happart hc hc'
  omega

/-- The layout of the memory in which `declarations` were made. -/
structure Arranged (order : ByteOrder) (declarations : List (String × Width)) : Prop where
  inside : ∀ name symbol, (ofDeclarations order declarations).symbol? name = some symbol →
    base ≤ symbol.address ∧
      symbol.address - base + symbol.size ≤ (ofDeclarations order declarations).bytes.length
  aligned : ∀ name symbol, (ofDeclarations order declarations).symbol? name = some symbol →
    symbol.size ∣ symbol.address
  disjoint : ∀ name name' symbol symbol', name ≠ name' →
    (ofDeclarations order declarations).symbol? name = some symbol →
    (ofDeclarations order declarations).symbol? name' = some symbol' →
      ∀ address, symbol.Covers address → ¬ symbol'.Covers address
  /-- The first declaration of a name decides where its variable is, and how wide. -/
  first : ∀ front name width back, declarations = front ++ (name, width) :: back →
    (∀ d ∈ front, name ≠ d.1) →
      (ofDeclarations order declarations).symbol? name =
          some ((ofDeclarations order front).define name width).1 ∧
        ((ofDeclarations order front).define name width).1.size = width.bytes
  undeclared : ∀ name, (∀ d ∈ declarations, name ≠ d.1) →
    (ofDeclarations order declarations).symbol? name = none
  /-- A byte of no variable is blank, and a variable of two bytes begins right behind it. -/
  padding : ∀ place (hplace : place < (ofDeclarations order declarations).bytes.length),
    (∀ name symbol, (ofDeclarations order declarations).symbol? name = some symbol →
      ¬ symbol.Covers (base + place)) →
        (ofDeclarations order declarations).bytes[place] = 0 ∧
          ∃ name symbol, (ofDeclarations order declarations).symbol? name = some symbol ∧
            symbol.size = 2 ∧ symbol.address = base + place + 1
  /-- No byte is changed by a later declaration. -/
  kept : ∀ front back, declarations = front ++ back →
    (ofDeclarations order front).bytes <+: (ofDeclarations order declarations).bytes

/-- Declarations, of any names and widths and however often repeated, arrange a memory. -/
theorem arranged (order : ByteOrder) (declarations : List (String × Width)) :
    Arranged order declarations := by
  have hpacked := packed_ofDeclarations order declarations
  constructor
  case inside =>
    intro name symbol hs
    have hinside := hpacked.inside _ (mem_of_symbol? hs)
    dsimp only at hinside
    omega
  case aligned => exact fun name symbol hs => hpacked.aligned _ (mem_of_symbol? hs)
  case disjoint => exact fun _ _ _ _ hne hs hs' _ hc => hpacked.disjoint hne hs hs' hc
  case first =>
    rintro front name width back rfl hfirst
    have hnew : (ofDeclarations order front).symbol? name = none :=
      symbol?_defineAll_other _ hfirst
    refine ⟨?_, by rw [define_of_none hnew]⟩
    rw [ofDeclarations_append]
    exact symbol?_defineAll_of_some (symbol?_define_self _ name width) back
  case undeclared => exact fun name hnone => symbol?_defineAll_other _ hnone
  case padding =>
    intro place hplace hfree
    obtain ⟨name, symbol, hs, hc | ⟨hsize, haddress⟩⟩ := hpacked.filled place hplace
    · exact absurd hc (hfree name symbol hs)
    · exact ⟨hpacked.blank _ (List.getElem_mem hplace), name, symbol, hs, hsize, haddress⟩
  case kept =>
    rintro front back rfl
    rw [ofDeclarations_append]
    exact bytes_prefix_defineAll _ back

/-- A variable of two bytes is kept off an odd address by one byte; the second declaration of `a`
comes to nothing. -/
example : ofDeclarations .little [("a", .bool8), ("b", .int16), ("a", .int16), ("c", .bool8)] =
    { symbols := [("a", ⟨base, 1⟩), ("b", ⟨base + 2, 2⟩), ("c", ⟨base + 4, 1⟩)]
      bytes := [0, 0, 0, 0, 0] } := by decide

end Ram

end MoteBench.Memory
