import LadderMachine.Pins
import LadderMachine.Program
import LadderMachine.Symbols

/-!
# Images

Everything that a container describes: a program that has been validated, the pin tables, the named
variables and the requested cycle time in microseconds.
-/

namespace LadderMachine

/-- A length of time as whole seconds and the remaining nanoseconds. -/
structure Period where
  seconds : Nat
  nanoseconds : Nat
deriving DecidableEq

def Period.ofMicroseconds (us : UInt64) : Period :=
  ⟨us.toNat / 1000000, us.toNat % 1000000 * 1000⟩

structure Image where
  program : Program
  pins : PinMap
  symbols : Symbols
  cycleTime : UInt64
deriving DecidableEq

end LadderMachine
