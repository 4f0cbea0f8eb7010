/-!
# Arithmetic and comparison of cells

Integer cells hold 32-bit words in two's complement. Sums, differences and products wrap around,
quotients are truncated toward zero, and there is no quotient or remainder for a zero divisor.
-/

namespace LadderMachine

inductive Arithmetic
  | add
  | subtract
  | multiply
  | divide
  | modulo
deriving DecidableEq

namespace Arithmetic

def symbol : Arithmetic → Char
  | add => '+'
  | subtract => '-'
  | multiply => '*'
  | divide => '/'
  | modulo => '%'

/-- Result of the operation; `none` exactly for a quotient or remainder by zero. -/
def apply (kind : Arithmetic) (lhs rhs : Int32) : Option Int32 :=
  match kind with
  | add => some (lhs + rhs)
  | subtract => some (lhs - rhs)
  | multiply => some (lhs * rhs)
  | divide => if rhs = 0 then none else some (lhs / rhs)
  | modulo => if rhs = 0 then none else some (lhs % rhs)

theorem apply_eq_none_iff (kind : Arithmetic) (lhs rhs : Int32) :
    kind.apply lhs rhs = none ↔ (kind = divide ∨ kind = modulo) ∧ rhs = 0 := by
  cases kind <;> simp [apply]

end Arithmetic

inductive Comparison
  | less
  | equal
  | greater
  | greaterOrEqual
  | lessOrEqual
  | notEqual
deriving DecidableEq

namespace Comparison

def symbol : Comparison → String
  | less => "<"
  | equal => "=="
  | greater => ">"
  | greaterOrEqual => ">="
  | lessOrEqual => "<="
  | notEqual => "!="

def holds (comparison : Comparison) (lhs rhs : Int32) : Bool :=
  match comparison with
  | less => decide (lhs < rhs)
  | equal => decide (lhs = rhs)
  | greater => decide (rhs < lhs)
  | greaterOrEqual => decide (rhs ≤ lhs)
  | lessOrEqual => decide (lhs ≤ rhs)
  | notEqual => decide (lhs ≠ rhs)

end Comparison

end LadderMachine
