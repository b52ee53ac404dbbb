/-! Texts cut at byte offsets of their UTF-8 form. A cut inside a character yields nothing. -/
namespace MoteBench.Text

/-- The length of the UTF-8 form. -/
def byteSize : List Char → Nat
  | [] => 0
  | c :: cs => c.utf8Size + byteSize cs

/-- What comes from a byte offset on. -/
def dropBytes? : Nat → List Char → Option (List Char)
  | 0, cs => some cs
  | _ + 1, [] => none
  | n + 1, c :: cs => if c.utf8Size ≤ n + 1 then dropBytes? (n + 1 - c.utf8Size) cs else none

/-- What comes before a byte offset. -/
def takeBytes? : Nat → List Char → Option (List Char)
  | 0, _ => some []
  | _ + 1, [] => none
  | n + 1, c :: cs =>
    if c.utf8Size ≤ n + 1 then (takeBytes? (n + 1 - c.utf8Size) cs).map (c :: ·) else none

/-- The stretch of so many bytes that begins at an offset. -/
def bytesAt? (offset size : Nat) (cs : List Char) : Option (List Char) :=
  (dropBytes? offset cs).bind (takeBytes? size)

@[simp] theorem byteSize_nil : byteSize [] = 0 := rfl

@[simp] theorem byteSize_cons (c : Char) (cs : List Char) :
    byteSize (c :: cs) = c.utf8Size + byteSize cs := rfl

theorem dropBytes?_append (xs ys : List Char) : dropBytes? (byteSize xs) (xs ++ ys) = some ys := by
  induction xs with
  | nil => simp [dropBytes?]
  | cons c cs ih =>
    obtain ⟨n, hn⟩ := Nat.exists_eq_add_one.2 c.utf8Size_pos
    have rest : n + byteSize cs + 1 - c.utf8Size = byteSize cs := by omega
    rw [byteSize_cons, show c.utf8Size + byteSize cs = n + byteSize cs + 1 by omega, List.cons_append,
      dropBytes?, if_pos (by omega), rest, ih]

theorem takeBytes?_append (xs ys : List Char) : takeBytes? (byteSize xs) (xs ++ ys) = some xs := by
  induction xs with
  | nil => simp [takeBytes?]
  | cons c cs ih =>
    obtain ⟨n, hn⟩ := Nat.exists_eq_add_one.2 c.utf8Size_pos
    have rest : n + byteSize cs + 1 - c.utf8Size = byteSize cs := by omega
    rw [byteSize_cons, show c.utf8Size + byteSize cs = n + byteSize cs + 1 by omega, List.cons_append,
      takeBytes?, if_pos (by omega), rest, ih]
    rfl

theorem bytesAt?_append (xs ys zs : List Char) :
    bytesAt? (byteSize xs) (byteSize ys) (xs ++ (ys ++ zs)) = some ys := by
  rw [bytesAt?, dropBytes?_append, Option.bind_some, takeBytes?_append]

end MoteBench.Text
