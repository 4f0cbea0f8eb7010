import LadderMachine.Container.Reader
import LadderMachine.Device
import LadderMachine.Machine

/-!
# The simulator

A simulator runs the machine of one image between the hooks of a device and gives the host access to
variables by name. Another image can be put in while it runs: memory, statistics and device stay,
while the program, the names, the pins and the cycle time are replaced. An image that cannot be read
leaves everything as it was.
-/

namespace LadderMachine

/-- A machine over existing memory with the settings of a configuration. -/
def Machine.ofConfig (config : Config) (program : Program) (memory : Memory) : Machine :=
  { program, memory, tracing := config.tracing, stepLimit := config.stepLimit }

/-- Why a variable could not be accessed by name. -/
inductive AccessError
  | unknownVariable (bank : Bank) (name : String)
  | memory (error : AddressError)
deriving DecidableEq

def AccessError.message : AccessError → String
  | unknownVariable bank name => "unknown " ++ bank.label ++ " variable '" ++ name ++ "'"
  | memory error => error.message

structure Simulator (σ : Type) where
  machine : Machine
  pins : PinMap
  symbols : Symbols
  cycleTime : UInt64
  config : Config
  device : Device σ
  state : σ

namespace Simulator

variable {σ τ : Type}

/-- Starts on an image with zero memory of the configured size. -/
def ofImage (image : Image) (config : Config) (device : Device σ) (state : σ) : Simulator σ where
  machine := .ofConfig config image.program (.ofGeometry config.geometry)
  pins := image.pins
  symbols := image.symbols
  cycleTime := image.cycleTime
  config := config
  device := device
  state := state

def attach (s : Simulator σ) (device : Device τ) (state : τ) : Simulator τ :=
  { s with device, state }

def memory (s : Simulator σ) : Memory := s.machine.memory

def withMemory (s : Simulator σ) (memory : Memory) : Simulator σ :=
  { s with machine.memory := memory }

/-- Reads inputs, runs one cycle within the budget and writes outputs. -/
def tick (budget : Nat) (s : Simulator σ) : Option (Logged (Outcome × Simulator σ)) :=
  let before := s.device.readInputs s.state s.pins s.memory
  match { s.machine with memory := before.value.2 }.cycle budget with
  | none => none
  | some done =>
    let after := s.device.writeOutputs before.value.1 s.pins done.machine.memory
    some ⟨(done.outcome, { s with machine := done.machine, state := after.value }),
      before.events ++ done.events ++ after.events⟩

/-- Runs cycles after others, the last of which ended as given and which reported `log`. -/
def runFrom (budget : Nat) : Nat → Option Outcome → Simulator σ → Array Event →
    Option (Logged (Option Outcome × Simulator σ))
  | 0, last, s, log => some ⟨(last, s), log.toList⟩
  | n + 1, _, s, log =>
    match s.tick budget with
    | none => none
    | some r => runFrom budget n (some r.value.1) r.value.2 (log ++ r.events)

/-- Runs cycles back to back and answers the outcome of the last one. -/
def run (budget n : Nat) (s : Simulator σ) : Option (Logged (Option Outcome × Simulator σ)) :=
  runFrom budget n none s #[]

def reload (s : Simulator σ) (image : Image) : Logged (Simulator σ) :=
  ⟨{ s with
      machine := s.machine.replaceProgram image.program
      pins := image.pins
      symbols := image.symbols
      cycleTime := image.cycleTime },
    [.reloaded image.program.length image.cycleTime]⟩

/-- Puts in an image that has just been read, unless the reading failed. -/
def reloadRead (s : Simulator σ) (r : Logged (Except LoadError Image)) :
    Logged (Except LoadError (Simulator σ)) :=
  match r.value with
  | .error e => ⟨.error e, r.events⟩
  | .ok image =>
    let next := s.reload image
    ⟨.ok next.value, r.events ++ next.events⟩

def reloadText (s : Simulator σ) (text : String) : Logged (Except LoadError (Simulator σ)) :=
  s.reloadRead (Container.read text s.config)

def reloadFile (s : Simulator σ) (path : String) (contents : Except ReadFault ByteArray) :
    Logged (Except LoadError (Simulator σ)) :=
  s.reloadRead (Container.readContents path contents s.config)

def resolve (s : Simulator σ) (bank : Bank) (name : String) : Except AccessError Nat :=
  match s.symbols.get? bank name with
  | some address => .ok address
  | none => .error (.unknownVariable bank name)

def readBit (s : Simulator σ) (name : String) : Except AccessError Bool :=
  match s.resolve .bit name with
  | .error e => .error e
  | .ok address =>
    match s.memory.bit? address with
    | some value => .ok value
    | none => .error (.memory (s.memory.outside .bit address))

def readInteger (s : Simulator σ) (name : String) : Except AccessError Int32 :=
  match s.resolve .int name with
  | .error e => .error e
  | .ok address =>
    match s.memory.integer? address with
    | some value => .ok value
    | none => .error (.memory (s.memory.outside .int address))

def writeBit (s : Simulator σ) (name : String) (value : Bool) :
    Except AccessError (Simulator σ) :=
  match s.resolve .bit name with
  | .error e => .error e
  | .ok address =>
    match s.memory.writeBit address value with
    | .ok memory => .ok (s.withMemory memory)
    | .error e => .error (.memory e)

def writeInteger (s : Simulator σ) (name : String) (value : Int32) :
    Except AccessError (Simulator σ) :=
  match s.resolve .int name with
  | .error e => .error e
  | .ok address =>
    match s.memory.writeInteger address value with
    | .ok memory => .ok (s.withMemory memory)
    | .error e => .error (.memory e)

end Simulator

end LadderMachine
