import MoteBench.Memory.Ram

/-! Simulated motes: a number and a memory. -/
namespace MoteBench

open Memory

structure Mote where
  id : MoteId
  ram : Ram := {}
  deriving DecidableEq, Repr

namespace Mote

/-- The port variables that every firmware declares, in this order. -/
def firmwareVariables : List String := ["tcp_test_port", "udp_server_port", "udp_client_port"]

def define (mote : Mote) (name : String) (width : Width) : Symbol × Mote :=
  let (symbol, ram) := mote.ram.define name width
  (symbol, { mote with ram })

def withVariable (mote : Mote) (name : String) (width : Width) : Mote := (mote.define name width).2

def withByteOrder (mote : Mote) (order : ByteOrder) : Mote :=
  { mote with ram := { mote.ram with order } }

/-- A mote with the firmware's variables. -/
def firmware (id : MoteId) : Mote :=
  firmwareVariables.foldl (fun mote name => mote.withVariable name .int16) { id }

instance : Node Mote where
  symbol? mote := mote.ram.symbol?
  load mote := mote.ram.load
  store mote address bs :=
    let (answer, ram) := mote.ram.store address bs
    (answer, { mote with ram })
  byteOrder mote := mote.ram.order
  id := id

end Mote

end MoteBench
