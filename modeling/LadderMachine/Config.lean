import LadderMachine.Files
import LadderMachine.Geometry
import LadderMachine.Json
import LadderMachine.Pins

/-!
# Configuration

The settings of a machine and its host, their defaults, and how they are read from a JSON document
with the sections `general`, `memory`, `io` and `engine`. A configuration is valid when every capacity
is positive and can be addressed by a signed 16-bit operand, and the step limit, if set, is positive.
A document that is no configuration at all is reported before any invalid setting.
-/

namespace LadderMachine

structure Config where
  tracing : Bool := false
  /-- Cycle period in microseconds for containers that give none. -/
  cycleTime : UInt64 := 10000
  geometry : Geometry := {}
  pins : PinCounts := {}
  /-- Most instructions that one cycle executes. -/
  stepLimit : Option Nat := none
deriving DecidableEq

inductive CapacitySetting
  | bits
  | integers
  | programCapacity
  | inputs
  | outputs
  | analogs
deriving DecidableEq

def CapacitySetting.label : CapacitySetting → String
  | bits => "memory.bits"
  | integers => "memory.integers"
  | programCapacity => "memory.program_capacity"
  | inputs => "io.inputs"
  | outputs => "io.outputs"
  | analogs => "io.analogs"

inductive ConfigError
  | unreadable (path : String) (fault : ReadFault)
  /-- The text is not a JSON document of the right shape. -/
  | malformed
  | zeroCapacity (setting : CapacitySetting)
  | capacityTooLarge (setting : CapacitySetting) (value : Nat)
  | zeroStepLimit
deriving DecidableEq

namespace Config

/-- Number of addresses that a signed 16-bit operand can name. -/
def maxCapacity : Nat := Nat.pow 2 15

end Config

def ConfigError.message : ConfigError → String
  | unreadable path fault => "couldn't read config '" ++ path ++ "': " ++ fault.message
  | malformed => "invalid config: not a configuration document"
  | zeroCapacity setting => "invalid config: " ++ setting.label ++ " must be nonzero"
  | capacityTooLarge setting value =>
    "invalid config: " ++ setting.label ++ " " ++ toString value ++
      " exceeds the 16-bit operand range (" ++ toString Config.maxCapacity ++ ")"
  | zeroStepLimit => "invalid config: engine.max_steps_per_cycle must be nonzero when set"

namespace Config

def capacities (c : Config) : List (CapacitySetting × Nat) :=
  [(.bits, c.geometry.bits), (.integers, c.geometry.integers),
    (.programCapacity, c.geometry.programCapacity), (.inputs, c.pins.inputs),
    (.outputs, c.pins.outputs), (.analogs, c.pins.analogs)]

def capacityFault? (setting : CapacitySetting) (value : Nat) : Option ConfigError :=
  if value = 0 then some (.zeroCapacity setting)
  else if maxCapacity < value then some (.capacityTooLarge setting value)
  else none

/-- The first setting that the machine cannot honour. -/
def fault? (c : Config) : Option ConfigError :=
  (c.capacities.findSome? fun s => capacityFault? s.1 s.2).or
    (if c.stepLimit = some 0 then some .zeroStepLimit else none)

def validate (c : Config) : Except ConfigError Config :=
  match c.fault? with
  | some fault => .error fault
  | none => .ok c

def readGeneral? (j : Json) : Option (Bool × UInt64) := do
  match ← j.fields? ["trace_instructions", "cycle_time_us"] with
  | [tracing, cycleTime] =>
    let tracing ← Json.orDefault Json.bool? false tracing
    let cycleTime ← Json.orDefault Json.word? 10000 cycleTime
    some (tracing, UInt64.ofNat cycleTime)
  | _ => none

def readMemory? (j : Json) : Option Geometry := do
  match ← j.fields? ["bits", "integers", "program_capacity"] with
  | [bits, integers, programCapacity] =>
    let bits ← Json.orDefault Json.word? 128 bits
    let integers ← Json.orDefault Json.word? 128 integers
    let programCapacity ← Json.orDefault Json.word? 256 programCapacity
    some { bits, integers, programCapacity }
  | _ => none

def readPins? (j : Json) : Option PinCounts := do
  match ← j.fields? ["inputs", "outputs", "analogs"] with
  | [inputs, outputs, analogs] =>
    let inputs ← Json.orDefault Json.word? 16 inputs
    let outputs ← Json.orDefault Json.word? 2 outputs
    let analogs ← Json.orDefault Json.word? 1 analogs
    some { inputs, outputs, analogs }
  | _ => none

def readEngine? (j : Json) : Option (Option Nat) := do
  match ← j.fields? ["max_steps_per_cycle"] with
  | [stepLimit] => Json.orDefault Json.optionalWord? none stepLimit
  | _ => none

/-- The configuration that a document describes; anything left out keeps its default. -/
def ofJson? (j : Json) : Option Config := do
  match ← j.fields? ["general", "memory", "io", "engine"] with
  | [general, memory, io, engine] =>
    let (tracing, cycleTime) ← Json.orDefault readGeneral? (false, 10000) general
    let geometry ← Json.orDefault readMemory? {} memory
    let pins ← Json.orDefault readPins? {} io
    let stepLimit ← Json.orDefault readEngine? none engine
    some { tracing, cycleTime, geometry, pins, stepLimit }
  | _ => none

def read (text : String) : Except ConfigError Config :=
  match (Json.parse? text).bind ofJson? with
  | some c => c.validate
  | none => .error .malformed

/-- Reads a configuration from the contents of a file, or from the reason why there are none. -/
def readContents (path : String) : Except ReadFault ByteArray → Except ConfigError Config
  | .error fault => .error (.unreadable path fault)
  | .ok contents =>
    match String.fromUTF8? contents with
    | some text => read text
    | none => .error (.unreadable path .notUtf8)

theorem validate_eq_ok_iff (c d : Config) : c.validate = .ok d ↔ c.fault? = none ∧ c = d := by
  unfold validate
  cases c.fault? <;> simp

theorem le_of_capacityFault? {setting : CapacitySetting} {value : Nat}
    (h : capacityFault? setting value = none) : value ≤ maxCapacity := by
  unfold capacityFault? at h
  split at h
  · simp at h
  · split at h
    · simp at h
    · omega

/-- Whatever a capacity is for, a valid configuration keeps it within the range of operands. -/
theorem le_of_mem_capacities {c d : Config} (h : c.validate = .ok d) (setting : CapacitySetting)
    {value : Nat} (hs : (setting, value) ∈ c.capacities) : value ≤ maxCapacity := by
  obtain ⟨hf, -⟩ := (validate_eq_ok_iff c d).1 h
  have hall := List.findSome?_eq_none_iff.1 (Option.or_eq_none_iff.1 hf).1
  exact le_of_capacityFault? (hall (setting, value) hs)

/-- The banks of a valid configuration can be addressed by operands. -/
theorem capacity_le_of_validate {c d : Config} (h : c.validate = .ok d) (bank : Bank) :
    c.geometry.capacity bank ≤ maxCapacity := by
  cases bank with
  | bit => exact le_of_mem_capacities h .bits (by simp [capacities, Geometry.capacity])
  | int => exact le_of_mem_capacities h .integers (by simp [capacities, Geometry.capacity])

end Config

end LadderMachine
