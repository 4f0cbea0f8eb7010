/-!
# Memory banks

Bits and integers live in disjoint address spaces, so an address has a meaning only together with its
bank. Integer cells have 32 bits; their bank keeps its historical label.
-/

namespace LadderMachine

inductive Bank
  | bit
  | int
deriving DecidableEq

namespace Bank

def label : Bank → String
  | bit => "bits"
  | int => "int16s"

end Bank

/-- Address named by a raw operand; a negative operand names none. -/
def operandAddress? (operand : Int16) : Option Nat := operand.toInt.toNat?

def operandFits (operand : Int16) (capacity : Nat) : Bool :=
  (operandAddress? operand).any (· < capacity)

theorem operandFits_iff (operand : Int16) (capacity : Nat) :
    operandFits operand capacity = true ↔ ∃ n, operandAddress? operand = some n ∧ n < capacity := by
  cases h : operandAddress? operand <;> simp [operandFits, h]

end LadderMachine
