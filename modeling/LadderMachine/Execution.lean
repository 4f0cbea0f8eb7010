import LadderMachine.Memory

/-!
# Execution of one operation

The effect of an operation is a new memory, the way control goes on, and at most one anomaly. An
operation with an operand outside memory has no effect beside that anomaly, and a division by zero
leaves its destination as it is.
-/

namespace LadderMachine

inductive Flow
  | next
  | jump (target : Int16)
  | finish
deriving DecidableEq

inductive Anomaly
  /-- Carries the operand that names the divisor. -/
  | divisionByZero (divisor : Int16)
  | unsupported (code : Int16)
  | operandOutside
deriving DecidableEq

structure Effect where
  memory : Memory
  flow : Flow := .next
  anomaly : Option Anomaly := none
deriving DecidableEq

namespace Effect

/-- Keeps the outcome of a store, or nothing but the fault if an operand was outside memory. -/
def ofStore (m : Memory) : Option Memory → Effect
  | some m' => { memory := m' }
  | none => { memory := m, anomaly := some .operandOutside }

/-- Jumps unless the condition holds; without a condition an operand was outside memory. -/
def ofCondition (m : Memory) (target : Int16) : Option Bool → Effect
  | some true => { memory := m }
  | some false => { memory := m, flow := .jump target }
  | none => { memory := m, anomaly := some .operandOutside }

end Effect

namespace Operation

def compare? (comparison : Comparison) (lhs rhs : Option Int32) : Option Bool :=
  lhs.bind fun a => rhs.map fun b => comparison.holds a b

def execute (op : Operation) (m : Memory) : Effect :=
  match op with
  | writeBit dst value => .ofStore m (m.storeBit dst value)
  | copyBit dst src => .ofStore m ((m.loadBit src).bind (m.storeBit dst))
  | setLiteral dst value => .ofStore m (m.storeInteger dst value)
  | setVariable dst src => .ofStore m ((m.loadInteger src).bind (m.storeInteger dst))
  | count dst direction =>
    .ofStore m ((m.loadInteger dst).bind fun v => m.storeInteger dst (v + direction.delta))
  | arithmetic kind dst lhs rhs =>
    match m.loadInteger lhs, m.loadInteger rhs with
    | some a, some b =>
      match kind.apply a b with
      | some v => .ofStore m (m.storeInteger dst v)
      | none => { memory := m, anomaly := some (.divisionByZero rhs) }
    | _, _ => { memory := m, anomaly := some .operandOutside }
  | unlessBit bit expected target =>
    .ofCondition m target ((m.loadBit bit).map (· == expected))
  | unlessLiteral comparison lhs literal target =>
    .ofCondition m target (compare? comparison (m.loadInteger lhs) (some literal))
  | unlessCompare comparison lhs rhs target =>
    .ofCondition m target (compare? comparison (m.loadInteger lhs) (m.loadInteger rhs))
  | jump target => { memory := m, flow := .jump target }
  | endOfProgram => { memory := m, flow := .finish }
  | marker _ _ => { memory := m }
  | unsupported code => { memory := m, anomaly := some (.unsupported code) }

end Operation

end LadderMachine
