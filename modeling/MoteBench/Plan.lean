import MoteBench.Memory.Access
import MoteBench.Port
import MoteBench.Text.Occurs
import MoteBench.Time

/-! Test plans: what a run configures, what it listens for, and how long it may take. -/
namespace MoteBench

/-- What a run comes to whose budget elapses before anything else ends it. -/
inductive Expiry where
  | pass
  | fail
  deriving DecidableEq, Repr, Inhabited

/-- Where the port of a parameter comes from; a drawn port is announced under its role. -/
inductive PortChoice where
  | fixed (port : Port)
  | drawn (role : String)
  deriving DecidableEq, Repr

/-- A port variable that every mote is given. -/
structure Parameter where
  variableName : String
  choice : PortChoice
  deriving DecidableEq, Repr

/-- Alternation between a phase with drawn ports and a phase with the neutral port everywhere. Each
phase ends with a message of the script's own that is exactly the cue. -/
structure ResetCycle where
  cue : String := "continue"
  runPhase : Span := .ofMillis 300000
  resetPhase : Span := .ofMillis 15000
  deriving DecidableEq, Repr

/-- Markers are looked for anywhere in a message; the failure marker comes before the others. -/
structure Plan where
  name : String := "custom"
  budget : Span := .ofMillis 3600000
  expiry : Expiry := .pass
  parameters : List Parameter := []
  failureMarker : Option String := some " ERROR "
  passMarker : Option String := none
  phaseMarker : Option String := none
  resetCycle : Option ResetCycle := none
  access : Memory.AccessMode := .quiet
  deriving DecidableEq, Repr

namespace Plan

/-- TCP on the port of MQTT for four hours. -/
def tcpFixedPort : Plan :=
  { name := "ipv6-tcp"
    budget := .ofMillis 14400000
    parameters := [⟨"tcp_test_port", .fixed Port.mqtt⟩] }

/-- Streams over TCP, each on a port of its own. -/
def tcpStream : Plan :=
  { name := "ipv6-tcp-stream"
    parameters := [⟨"tcp_test_port", .drawn "server"⟩]
    phaseMarker := some "Stream OK" }

def udpPair : List Parameter :=
  [⟨"udp_server_port", .drawn "server"⟩, ⟨"udp_client_port", .drawn "client"⟩]

/-- UDP over RPL on one pair of ports. -/
def rplUdp : Plan :=
  { name := "rpl-udp", parameters := udpPair }

/-- UDP over RPL on pairs of ports that are reset and drawn again. -/
def rplUdpVarying : Plan :=
  { name := "rpl-udp-varying"
    budget := .ofMillis 7200000
    parameters := udpPair
    resetCycle := some {} }

def fails (plan : Plan) (text : String) : Bool := plan.failureMarker.any (Text.mentions text)

def passes (plan : Plan) (text : String) : Bool := plan.passMarker.any (Text.mentions text)

def endsPhase (plan : Plan) (text : String) : Bool := plan.phaseMarker.any (Text.mentions text)

end Plan

end MoteBench
