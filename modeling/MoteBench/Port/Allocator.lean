import MoteBench.Port
import MoteBench.Random.KeyStream
import MoteBench.Trace

/-!
Random ports. One draw chooses fairly among the well-known ports and one bucket more; that bucket
stands for the ephemeral ports, and a second draw chooses fairly among them.
-/
namespace MoteBench.Port

open MoteBench.Random

/-- A source of random words, and how often one draw may be repeated. -/
structure Allocator (G : Type) where
  source : G
  patience : Nat := UInt64.size
  deriving DecidableEq, Repr

/-- An allocator that gives the same ports whenever it starts from the same seed. -/
def Allocator.ofSeed (seed : UInt64) : Allocator KeyStream := { source := .ofSeed seed }

def ephemeralCount : Nat := lastEphemeral.toNat + 1 - firstEphemeral.toNat

/-- The port and the allocator after it. -/
def draw {G : Type} [WordSource G] (a : Allocator G) : Port × Allocator G :=
  let (bucket, source) := drawBelow (wellKnown.length + 1) a.patience a.source
  match wellKnown[bucket]? with
  | some port => (port, { a with source })
  | none =>
    let (word, source) := WordSource.next32 source
    (firstEphemeral + .ofNat (scaled32 ephemeralCount word), { a with source })

/-- Draws a port, whatever its role, and announces it under the role. -/
def allocate {G : Type} [WordSource G] (a : Allocator G) (role : String) :
    Port × Allocator G × Trace :=
  let (port, a) := draw a
  (port, a, [.portDrawn role port])

end MoteBench.Port
