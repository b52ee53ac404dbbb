/-! Occurrence of one text inside another. -/
namespace MoteBench.Text

def occursIn (m : List Char) : List Char → Bool
  | [] => m.isEmpty
  | c :: cs => m.isPrefixOf (c :: cs) || occursIn m cs

theorem occursIn_iff {m t : List Char} : occursIn m t = true ↔ m <:+: t := by
  induction t with
  | nil => simp [occursIn]
  | cons c cs ih => simp [occursIn, ih, List.infix_cons_iff]

/-- Whether `m` stands somewhere in `s`; the empty text stands everywhere. -/
def mentions (s m : String) : Bool := occursIn m.toList s.toList

end MoteBench.Text
