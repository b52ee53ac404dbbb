import MoteBench.Agenda
import MoteBench.Agenda.Heap
import MoteBench.Broadcast
import MoteBench.CommandLine.Arguments
import MoteBench.CommandLine.Directive
import MoteBench.CommandLine.Filter
import MoteBench.CommandLine.Session
import MoteBench.Controller
import MoteBench.Controller.Action
import MoteBench.Decimal.Binary64
import MoteBench.Decimal.Hundredths
import MoteBench.Decimal.Round
import MoteBench.Feed
import MoteBench.Main
import MoteBench.Memory.Access
import MoteBench.Memory.Image
import MoteBench.Memory.Ram
import MoteBench.Memory.Value
import MoteBench.Message
import MoteBench.Mote
import MoteBench.Plan
import MoteBench.Port
import MoteBench.Port.Allocator
import MoteBench.Proofs.Broadcast
import MoteBench.Proofs.Broadcast.Independence
import MoteBench.Proofs.CommandLine.Session
import MoteBench.Proofs.Controller.Cues
import MoteBench.Proofs.Controller.History
import MoteBench.Proofs.Controller.InPlace
import MoteBench.Proofs.Controller.Lifecycle
import MoteBench.Proofs.Controller.Replay
import MoteBench.Proofs.Controller.Schedule
import MoteBench.Proofs.Cursor
import MoteBench.Proofs.Cursor.Search
import MoteBench.Proofs.Feed.Linewise
import MoteBench.Proofs.Feed.RoundTrip
import MoteBench.Proofs.Instant
import MoteBench.Proofs.Memory.Addressing
import MoteBench.Proofs.Memory.Assignment
import MoteBench.Proofs.Memory.Declarations
import MoteBench.Proofs.Memory.Guard
import MoteBench.Proofs.Memory.Layout
import MoteBench.Proofs.Memory.Variables
import MoteBench.Proofs.Message.Grammar
import MoteBench.Proofs.Port.Draws
import MoteBench.Proofs.Port.Fairness
import MoteBench.Proofs.Random.Fairness
import MoteBench.Proofs.Run.Account
import MoteBench.Proofs.Run.Alike
import MoteBench.Proofs.Run.Audit
import MoteBench.Proofs.Run.Bisimulation
import MoteBench.Proofs.Run.Chronicle
import MoteBench.Proofs.Run.Clock
import MoteBench.Proofs.Run.Cycle
import MoteBench.Proofs.Run.Decision
import MoteBench.Proofs.Run.Ending
import MoteBench.Proofs.Run.Limit
import MoteBench.Proofs.Run.Motes
import MoteBench.Proofs.Run.Outcomes
import MoteBench.Proofs.Run.Phases
import MoteBench.Proofs.Run.Plain
import MoteBench.Proofs.Run.Recorded
import MoteBench.Proofs.Run.Schedule
import MoteBench.Proofs.Run.Step
import MoteBench.Proofs.Run.Walk
import MoteBench.Proofs.Scenario.Order
import MoteBench.Proofs.StableOrder
import MoteBench.Proofs.Text.Field
import MoteBench.Proofs.World.Alike
import MoteBench.Proofs.World.Clock
import MoteBench.Proofs.World.Deadline
import MoteBench.Proofs.World.Decisive
import MoteBench.Proofs.World.Delay
import MoteBench.Proofs.World.Delivery
import MoteBench.Proofs.World.Docket
import MoteBench.Proofs.World.Generated
import MoteBench.Proofs.World.InPlace
import MoteBench.Proofs.World.Numbers
import MoteBench.Proofs.World.Pace
import MoteBench.Proofs.World.Population
import MoteBench.Proofs.World.Request
import MoteBench.Proofs.World.Timeouts
import MoteBench.Random.KeyStream
import MoteBench.Random.Words
import MoteBench.Run
import MoteBench.Scenario
import MoteBench.Simulator
import MoteBench.Text.Blank
import MoteBench.Text.Bytes
import MoteBench.Text.Letter
import MoteBench.Text.Lines
import MoteBench.Text.Numeral
import MoteBench.Text.Occurs
import MoteBench.Text.Pattern
import MoteBench.Text.Pattern.Escape
import MoteBench.Text.Pattern.Group
import MoteBench.Text.Pattern.Nesting
import MoteBench.Text.Pattern.Set
import MoteBench.Text.Ranges
import MoteBench.Time
import MoteBench.Trace
import MoteBench.Verdict
import MoteBench.World
