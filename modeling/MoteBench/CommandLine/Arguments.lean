import MoteBench.Plan
import MoteBench.Text.Numeral

/-!
The words of a command line. Options take one value, in the next word or in their own word after
`=` or, for one-letter options, directly; no option may come twice, and there is nothing but options.
Words are judged from left to right, and a request for help or the version ends the judging.
-/
namespace MoteBench.CommandLine

structure Arguments where
  plan : Plan := .rplUdp
  seed : UInt64 := 12345
  motes : Nat := 3
  budget : Option Span := none
  feed : Option String := none
  audited : Bool := false
  maxEvents : Option Nat := none
  logLevel : String := "info"
  deriving DecidableEq, Repr

/-- What a command line asks for. -/
inductive Request where
  | run (arguments : Arguments)
  | version
  | help
  | misuse
  deriving DecidableEq, Repr

inductive Key where
  | plan
  | seed
  | motes
  | timeoutMs
  | feed
  | verboseMemory
  | maxEvents
  | logLevel
  | version
  | help
  deriving DecidableEq, Repr

namespace Key

def ofLong? : String → Option Key
  | "plan" => some .plan
  | "seed" => some .seed
  | "motes" => some .motes
  | "timeout-ms" => some .timeoutMs
  | "feed" => some .feed
  | "verbose-memory" => some .verboseMemory
  | "max-events" => some .maxEvents
  | "log-level" => some .logLevel
  | "version" => some .version
  | "help" => some .help
  | _ => none

def ofShort? : Char → Option Key
  | 'p' => some .plan
  | 's' => some .seed
  | 'm' => some .motes
  | 'f' => some .feed
  | 'V' => some .version
  | 'h' => some .help
  | _ => none

def takesValue : Key → Bool
  | .verboseMemory | .version | .help => false
  | _ => true

end Key

/-- One use of an option, with its value if it has one; or a word that is none. -/
inductive Use where
  | option (key : Key) (value : Option String)
  | stray
  deriving DecidableEq, Repr

/-- Whether a word can be the value of the option before it. -/
def isValue (word : String) : Bool := word = "-" || word.toList.head? ≠ some '-'

/-- The options in a word of one-letter options. One that takes a value takes all that is left. -/
def shortUses : List Char → List Use
  | [] => []
  | c :: rest =>
    match Key.ofShort? c with
    | none => [.stray]
    | some key =>
      if key.takesValue then
        let value := match rest with
          | [] => none
          | '=' :: value => some (.ofList value)
          | value => some (.ofList value)
        [.option key value]
      else .option key none :: shortUses rest

/-- The option in a word that began with two dashes. -/
def longUse (body : List Char) : Use :=
  let (name, rest) := body.span (· ≠ '=')
  match Key.ofLong? (.ofList name), rest with
  | none, _ => .stray
  | some key, [] => .option key none
  | some key, _ :: value => if key.takesValue then .option key (some (.ofList value)) else .stray

/-- The uses that one word holds, before a value is looked for in the next word. -/
def usesOf (word : String) : List Use :=
  match word.toList with
  | '-' :: '-' :: body => [longUse body]
  | '-' :: c :: rest => shortUses (c :: rest)
  | _ => [.stray]

/-- Gives a value to the last use, if it is that of an option that takes one and lacks it. -/
def withValue? (uses : List Use) (value : String) : Option (List Use) :=
  match uses.getLast? with
  | some (.option key none) =>
    if key.takesValue && isValue value then some (uses.dropLast ++ [.option key (some value)])
    else none
  | _ => none

/-- All uses on a command line. After a word of two dashes alone every word is stray. -/
def uses : List String → List Use
  | [] => []
  | [word] => if word = "--" then [] else usesOf word
  | word :: next :: rest =>
    if word = "--" then .stray :: rest.map fun _ => .stray
    else match withValue? (usesOf word) next with
      | some here => here ++ uses rest
      | none => usesOf word ++ uses (next :: rest)

def planNamed? : String → Option Plan
  | "tcp-fixed-port" => some .tcpFixedPort
  | "tcp-stream" => some .tcpStream
  | "rpl-udp" => some .rplUdp
  | "rpl-udp-varying" => some .rplUdpVarying
  | _ => none

/-- A count of motes; zero may have a minus sign. -/
def readCount? : List Char → Option Nat
  | '-' :: zeros => if zeros ≠ [] ∧ zeros.all (· = '0') then some 0 else none
  | cs => Text.readNumeral? UInt32.size cs

def readWord? (s : String) : Option Nat := Text.readNumeral? UInt64.size s.toList

/-- Sets the field of an option to a value, if the value fits. -/
def Arguments.set? (a : Arguments) (value : String) : Key → Option Arguments
  | .plan => (planNamed? value).map fun plan => { a with plan }
  | .seed => (readWord? value).map fun n => { a with seed := .ofNat n }
  | .motes => (readCount? value.toList).map fun motes => { a with motes }
  | .timeoutMs => (readWord? value).map fun n => { a with budget := some (.ofMillis n) }
  | .feed => if value = "" then none else some { a with feed := some value }
  | .maxEvents => (readWord? value).map fun n => { a with maxEvents := some n }
  | .logLevel => some { a with logLevel := value }
  | .verboseMemory | .version | .help => none

/-- Judges uses from left to right, given the options seen before them. -/
def judge (seen : List Key) (a : Arguments) : List Use → Request
  | [] => .run a
  | .stray :: _ => .misuse
  | .option .version _ :: _ => .version
  | .option .help _ :: _ => .help
  | .option key value :: rest =>
    if key ∈ seen then .misuse
    else match key, value with
      | .verboseMemory, _ => judge (key :: seen) { a with audited := true } rest
      | _, none => .misuse
      | _, some value =>
        match a.set? value key with
        | none => .misuse
        | some a => judge (key :: seen) a rest

def Request.ofWords (words : List String) : Request := judge [] {} (uses words)

example : Request.ofWords ["-s3", "-m=2", "--plan", "tcp-stream"] =
    .run { plan := .tcpStream, seed := 3, motes := 2 } := by cbv

end MoteBench.CommandLine
