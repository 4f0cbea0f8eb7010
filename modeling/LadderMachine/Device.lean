import LadderMachine.Event
import LadderMachine.Memory
import LadderMachine.Pins

/-!
# Devices

A device stands between the pins and memory: before each cycle it copies inputs into memory, after it
copies outputs from memory. Its state is a value that the two hooks pass on.
-/

namespace LadderMachine

structure Device (σ : Type) where
  readInputs : σ → PinMap → Memory → Logged (σ × Memory)
  writeOutputs : σ → PinMap → Memory → Logged σ

namespace Device

def absent : Device Unit where
  readInputs state _ memory := ⟨(state, memory), []⟩
  writeOutputs state _ _ := ⟨state, []⟩

end Device

/-- State of a console: the bit it drives as a square wave, if any, and the level last written. -/
structure Console where
  oscillator : Option Nat := none
  level : Bool := false
deriving DecidableEq

namespace Console

def drive (c : Console) (memory : Memory) : Logged (Console × Memory) :=
  match c.oscillator with
  | none => ⟨(c, memory), []⟩
  | some address =>
    let next := { c with level := !c.level }
    match memory.writeBit address next.level with
    | .ok memory' => ⟨(next, memory'), []⟩
    | .error e => ⟨(next, memory), [.oscillatorFault e.message]⟩

/-- State of an output as it is reported; an output outside memory counts as off. -/
def outputEvent (memory : Memory) (entry : Nat × Nat) : Event :=
  .output (PinKind.output.letter.toString ++ toString entry.1) ((memory.bit? entry.2).getD false)

def device : Device Console where
  readInputs c _ memory := c.drive memory
  writeOutputs c pins memory := ⟨c, (pins.mapped .output).map (outputEvent memory)⟩

end Console

end LadderMachine
