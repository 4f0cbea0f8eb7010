import LadderMachine.Disassembly
import LadderMachine.Text.Quoted

/-!
# Events

What the machine, the container reader and the host report while they work. An event has a level, a
message and fields; its text is the message followed by the fields in their order. A computation that
reports events returns them next to its value, oldest first.
-/

namespace LadderMachine

inductive Level
  | trace
  | debug
  | info
  | warn
  | error
deriving DecidableEq

namespace Level

def label : Level → String
  | trace => "TRACE"
  | debug => "DEBUG"
  | info => "INFO"
  | warn => "WARN"
  | error => "ERROR"

def rank : Level → Nat
  | trace => 0
  | debug => 1
  | info => 2
  | warn => 3
  | error => 4

end Level

inductive Event
  | listedUnsupported (count : Nat)
  | loading (path : String) (bytes : Nat)
  /-- A metadata line starts like a sentinel but is none that is known. -/
  | ignoredSentinel (line : Nat) (text : String)
  /-- A name that was already in its bank got another address. -/
  | remapped (line : Nat) (name : String) (previous address : Nat)
  /-- A pin lies beyond the capacity of its table. -/
  | pinBeyondTable (line : Nat) (name : String)
  | loaded (instructions bitNames intNames : Nat) (cycleTime : UInt64)
  | reloaded (instructions : Nat) (cycleTime : UInt64)
  | executing (pc : Nat) (instruction : Instruction)
  | ranPastEnd (pc : Nat)
  | stepLimitReached (limit pc : Nat)
  /-- A division was skipped; carries the operand that names the divisor. -/
  | divisionByZero (pc : Nat) (divisor : Int16)
  | unsupportedSkipped (pc : Nat) (code : Int16)
  | operandOutside (pc : Nat)
  | jumpOutside (pc : Nat) (target : Int16)
  /-- State of an output after a cycle. -/
  | output (pin : String) (value : Bool)
  | cycleRanPastEnd (cycle : Nat)
  | cycleCutShort (cycle steps : Nat)
  | cycleJumpedOutside (cycle pc : Nat) (target : Int16)
  /-- The oscillating bit could not be written. -/
  | oscillatorFault (reason : String)
deriving DecidableEq

namespace Event

def level : Event → Level
  | listedUnsupported _ => .warn
  | loading _ _ => .debug
  | ignoredSentinel _ _ => .debug
  | remapped _ _ _ _ => .debug
  | pinBeyondTable _ _ => .trace
  | loaded _ _ _ _ => .debug
  | reloaded _ _ => .info
  | executing _ _ => .trace
  | ranPastEnd _ => .debug
  | stepLimitReached _ _ => .warn
  | divisionByZero _ _ => .debug
  | unsupportedSkipped _ _ => .warn
  | operandOutside _ => .warn
  | jumpOutside _ _ => .warn
  | output _ _ => .debug
  | cycleRanPastEnd _ => .debug
  | cycleCutShort _ _ => .warn
  | cycleJumpedOutside _ _ _ => .warn
  | oscillatorFault _ => .warn

def message : Event → String
  | listedUnsupported _ => "program contains opcodes unsupported by the interpreter"
  | loading _ _ => "loading container"
  | ignoredSentinel _ _ => "ignoring sentinel"
  | remapped _ _ _ _ => "variable remapped"
  | pinBeyondTable _ _ => "pin beyond table capacity ignored"
  | loaded _ _ _ _ => "container loaded"
  | reloaded _ _ => "program reloaded"
  | executing pc instruction => Hexadecimal.padded 3 pc ++ ": " ++ instruction.text
  | ranPastEnd _ => "cycle ran past the last instruction slot"
  | stepLimitReached _ _ => "step watchdog tripped; cycle cut short"
  | divisionByZero _ _ => "division by zero skipped"
  | unsupportedSkipped _ _ => "unsupported op (peripheral) for interpretable target; skipped"
  | operandOutside _ => "operand outside memory; instruction skipped"
  | jumpOutside _ _ => "jump target outside program; cycle aborted"
  | output _ _ => "output"
  | cycleRanPastEnd _ => "ran off end of program"
  | cycleCutShort _ _ => "watchdog tripped"
  | cycleJumpedOutside _ _ _ => "invalid jump"
  | oscillatorFault reason => "oscillator: " ++ reason

def fields : Event → List (String × String)
  | listedUnsupported count => [("bad_codes", toString count)]
  | loading path bytes => [("path", path), ("bytes", toString bytes)]
  | ignoredSentinel line text => [("line", toString line), ("sentinel", Text.quoted text)]
  | remapped line name previous address =>
    [("line", toString line), ("name", Text.quoted name), ("previous", toString previous),
      ("addr", toString address)]
  | pinBeyondTable line name => [("line", toString line), ("name", Text.quoted name)]
  | loaded instructions bitNames intNames cycleTime =>
    [("instructions", toString instructions), ("bit_names", toString bitNames),
      ("int_names", toString intNames), ("cycle_time_us", toString cycleTime.toNat)]
  | reloaded instructions cycleTime =>
    [("instructions", toString instructions), ("cycle_time_us", toString cycleTime.toNat)]
  | executing pc _ => [("pc", toString pc)]
  | ranPastEnd pc => [("pc", toString pc)]
  | stepLimitReached limit pc => [("limit", toString limit), ("pc", toString pc)]
  | divisionByZero pc divisor => [("pc", toString pc), ("divisor", integerText divisor.toInt)]
  | unsupportedSkipped pc code => [("pc", toString pc), ("op", integerText code.toInt)]
  | operandOutside pc => [("pc", toString pc)]
  | jumpOutside pc target => [("pc", toString pc), ("target", integerText target.toInt)]
  | output pin value => [("pin", pin), ("value", if value then "true" else "false")]
  | cycleRanPastEnd cycle => [("cycle", toString cycle)]
  | cycleCutShort cycle steps => [("cycle", toString cycle), ("steps", toString steps)]
  | cycleJumpedOutside cycle pc target =>
    [("cycle", toString cycle), ("pc", toString pc), ("target", integerText target.toInt)]
  | oscillatorFault _ => []

def text (e : Event) : String :=
  e.message ++ String.join (e.fields.map fun f => " " ++ f.1 ++ "=" ++ f.2)

end Event

/-- A value together with the events reported while it was computed, oldest first. -/
structure Logged (α : Type) where
  value : α
  events : List Event := []

namespace Logged

def map {α β : Type} (f : α → β) (x : Logged α) : Logged β := ⟨f x.value, x.events⟩

end Logged

end LadderMachine
