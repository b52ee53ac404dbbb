/-! Ports that a test may run on. -/
namespace MoteBench

abbrev Port := UInt16

namespace Port

/-- Ports of well-known protocols, in the order in which a draw counts them. -/
def wellKnown : List Port :=
  [20, 21, 22, 23, 53, 80, 123, 161, 443, 546, 5457, 1900, 5222, 5223, 5269, 5298, 5353, 5683,
    5684, 5671, 5672, 1883, 8882, 8883]

def firstEphemeral : Port := 32768

def lastEphemeral : Port := 65535

/-- The port that stands for "not configured". -/
def neutral : Port := 0

def mqtt : Port := 1883

def isAllocatable (p : Port) : Bool :=
  wellKnown.contains p || (firstEphemeral ≤ p && p ≤ lastEphemeral)

theorem not_isAllocatable_neutral : isAllocatable neutral = false := by decide

end Port

end MoteBench
