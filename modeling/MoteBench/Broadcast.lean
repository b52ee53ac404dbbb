import MoteBench.Memory.Access

/-!
Setting variables on all nodes of a simulation. A node that refuses a value is counted and passed
over; the others are written all the same.
-/
namespace MoteBench

open Memory

variable {ν : Type} [Node ν]

def broadcast (mode : AccessMode) (b : Binding) (nodes : List ν) : List ν × Trace :=
  let attempts := nodes.map (write mode · b.name b.value)
  let failed := attempts.countP (!·.succeeded)
  (attempts.map (·.node),
    attempts.flatMap (·.trace) ++ [.broadcast b nodes.length failed])

/-- Binding after binding; a name that is bound twice keeps its last value. -/
def broadcastAll (mode : AccessMode) : List Binding → List ν → List ν × Trace
  | [], nodes => (nodes, [])
  | b :: rest, nodes =>
    let (nodes, first) := broadcast mode b nodes
    let (nodes, others) := broadcastAll mode rest nodes
    (nodes, first ++ others)

end MoteBench
