import LadderMachine.CommandLine.Arguments
import LadderMachine.CommandLine.Output
import LadderMachine.Simulator

/-!
# Sessions

A session is a run of a container on a console. It opens with the loaded image, shows the watched
variables after each cycle and closes with a dump of memory and the statistics, as far as they are
asked for. A variable that is watched may be an integer or a bit, and an integer goes first.
-/

namespace LadderMachine.CommandLine

inductive Fatal
  | config (error : ConfigError)
  | load (error : LoadError)
  | access (error : AccessError)
  | listing (error : UnsupportedCodes)
deriving DecidableEq

def Fatal.message : Fatal → String
  | config error => error.message
  | load error => error.message
  | access error => error.message
  | listing error => error.message

/-- A result together with everything printed on the way to it. -/
structure Attempt (α : Type) where
  output : List Output
  result : Except Fatal α

/-- Output of a listing; its events come before its text. -/
def listingOutput (l : Listing) : List Output := Output.ofEvents l.events ++ [.text l.text]

structure Session where
  simulator : Simulator Console
  watches : List String
  /-- Number of cycles run so far. -/
  count : Nat := 0

namespace Session

def banner (options : RunOptions) (config : Config) (image : Image) : String :=
  "[*] Loaded " ++ options.file ++ "\n    Instructions: " ++ toString image.program.length ++
    "  Cycle: " ++ toString image.cycleTime.toNat ++ " us  Bits: " ++
    toString config.geometry.bits ++ "  Integers: " ++ toString config.geometry.integers ++ "\n"

def oscillator? (symbols : Symbols) : Option String → Except AccessError (Option Nat)
  | none => .ok none
  | some name =>
    match symbols.get? .bit name with
    | some address => .ok (some address)
    | none => .error (.unknownVariable .bit name)

/-- The first watched name that is in neither bank. -/
def unknownWatch? (symbols : Symbols) (names : List String) : Option AccessError :=
  (names.find? fun n => (symbols.get? .int n).isNone && (symbols.get? .bit n).isNone).map
    (.unknownVariable .bit)

def start (options : RunOptions) (config : Config) (image : Image) : Except AccessError Session :=
  match oscillator? image.symbols options.oscillator with
  | .error e => .error e
  | .ok oscillator =>
    match unknownWatch? image.symbols options.watches with
    | some e => .error e
    | none =>
      .ok {
        simulator := .ofImage image config Console.device { oscillator }
        watches := options.watches }

def openOn (options : RunOptions) (config : Config) (r : Logged (Except LoadError Image)) :
    Attempt Session :=
  match r.value with
  | .error e => ⟨Output.ofEvents r.events, .error (.load e)⟩
  | .ok image =>
    let shown := Output.ofEvents r.events ++ [.text (banner options config image)] ++
      if options.listing then listingOutput image.program.listing else []
    match start options config image with
    | .error e => ⟨shown, .error (.access e)⟩
    | .ok session => ⟨shown, .ok session⟩

def watchedValue (s : Simulator Console) (name : String) : String :=
  match s.readInteger name with
  | .ok v => integerText v.toInt
  | .error _ =>
    match s.readBit name with
    | .ok b => if b then "1" else "0"
    | .error _ => "?"

def watchLine (s : Simulator Console) (names : List String) (cycles : Nat) : String :=
  String.ofList ((Nat.toDigits 10 cycles).leftpad 6 ' ') ++ ": " ++
    "  ".intercalate (names.map fun n => n ++ "=" ++ watchedValue s n)

/-- What the session reports about the way a cycle ended; cycles are counted from zero here. -/
def outcomeEvents (cycle : Nat) : Outcome → List Event
  | .completed => []
  | .ranPastEnd => [.cycleRanPastEnd cycle]
  | .stepLimitReached steps => [.cycleCutShort cycle steps]
  | .invalidJump pc target => [.cycleJumpedOutside cycle pc target]

def cycle (budget : Nat) (s : Session) : Option (List Output × Session) :=
  match s.simulator.tick budget with
  | none => none
  | some r =>
    let simulator := r.value.2
    let line := if s.watches = [] then []
      else [.text (watchLine simulator s.watches (s.count + 1) ++ "\n")]
    some (Output.ofEvents (r.events ++ outcomeEvents s.count r.value.1) ++ line,
      { s with simulator, count := s.count + 1 })

def cycles (budget : Nat) : Nat → Session → Array Output → Option (List Output × Session)
  | 0, s, shown => some (shown.toList, s)
  | n + 1, s, shown =>
    match s.cycle budget with
    | none => none
    | some (outputs, next) => cycles budget n next (shown ++ outputs)

def closing (options : RunOptions) (s : Session) : List Output :=
  (if options.dump then [.text s.simulator.memory.dump] else []) ++
    if options.statistics then [.text s.simulator.machine.statistics.report] else []

end Session

end LadderMachine.CommandLine
