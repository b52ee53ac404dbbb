/-! Values of variables, and the bytes that hold them. -/
namespace MoteBench.Memory

inductive ByteOrder where
  | little
  | big
  deriving DecidableEq, Repr, Inhabited

/-- The width of an access: one byte read as a truth value, or two as an unsigned number. -/
inductive Width where
  | bool8
  | int16
  deriving DecidableEq, Repr

namespace Width

def bytes : Width → Nat
  | .bool8 => 1
  | .int16 => 2

def label : Width → String
  | .bool8 => "bool"
  | .int16 => "int16"

theorem bytes_pos (w : Width) : 0 < w.bytes := by
  cases w <;> decide

end Width

inductive Value where
  | bool (b : Bool)
  | int16 (n : UInt16)
  deriving DecidableEq, Repr

namespace Value

def width : Value → Width
  | .bool _ => .bool8
  | .int16 _ => .int16

def render : Value → String
  | .bool b => toString b
  | .int16 n => toString n.toNat

def encode (order : ByteOrder) : Value → List UInt8
  | .bool b => [if b then 1 else 0]
  | .int16 n =>
    let low := UInt8.ofNat (n.toNat % 256)
    let high := UInt8.ofNat (n.toNat / 256)
    match order with
    | .little => [low, high]
    | .big => [high, low]

/-- Reads a value back; any byte but zero is true. -/
def decode? (order : ByteOrder) : Width → List UInt8 → Option Value
  | .bool8, b :: _ => some (.bool (b ≠ 0))
  | .int16, [x, y] =>
    let (low, high) := match order with
      | .little => (x, y)
      | .big => (y, x)
    some (.int16 (.ofNat (256 * high.toNat + low.toNat)))
  | _, _ => none

@[simp] theorem length_encode (order : ByteOrder) (v : Value) :
    (v.encode order).length = v.width.bytes := by
  cases v <;> cases order <;> rfl

theorem decode?_encode (order : ByteOrder) (v : Value) :
    decode? order v.width (v.encode order) = some v := by
  cases v with
  | bool b => cases b <;> rfl
  | int16 n =>
    have hn := n.toNat_lt
    have join : UInt16.ofNat
        (256 * (UInt8.ofNat (n.toNat / 256)).toNat + (UInt8.ofNat (n.toNat % 256)).toNat) = n := by
      apply UInt16.toNat_inj.1
      rw [UInt16.toNat_ofNat', UInt8.toNat_ofNat', UInt8.toNat_ofNat']
      omega
    cases order <;> exact congrArg (some ∘ Value.int16) join

theorem decode?_isSome {order : ByteOrder} {w : Width} {bs : List UInt8} (h : bs.length = w.bytes) :
    (decode? order w bs).isSome := by
  match w, bs, h with
  | .bool8, [_], _ => rfl
  | .int16, [_, _], _ => rfl

end Value

/-- A variable and the value it is to have. -/
structure Binding where
  name : String
  value : Value
  deriving DecidableEq, Repr

def Binding.render (b : Binding) : String := b.name ++ "=" ++ b.value.render

end MoteBench.Memory
