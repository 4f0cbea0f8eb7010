import LadderMachine.Bank

/-!
# Memory geometry

The capacities a program has to fit: the cells of both banks and the number of instruction slots.
-/

namespace LadderMachine

structure Geometry where
  bits : Nat := 128
  integers : Nat := 128
  programCapacity : Nat := 256
deriving DecidableEq

def Geometry.capacity (g : Geometry) : Bank → Nat
  | .bit => g.bits
  | .int => g.integers

end LadderMachine
