import LadderMachine.Arithmetic
import LadderMachine.Bank
import LadderMachine.Instruction

/-!
# Operations

An operation is an instruction record with the meaning of its fields made explicit. Every record has
one: a code without a meaning becomes `unsupported`. Conditionals are kept in the form "jump unless",
so the condition names the case in which execution falls through.
-/

namespace LadderMachine

/-- Fixup notes of the compiler, which have no effect when executed. -/
inductive Marker
  | forwardAllocated
  | knownAllocated
  | forwardResolved
deriving DecidableEq

def Marker.mnemonic : Marker → String
  | forwardAllocated => "INT_AllocFwdAddr"
  | knownAllocated => "INT_AllocKnownAddr"
  | forwardResolved => "INT_FwdAddrIsNow"

/-- Direction in which a counter moves by one. -/
inductive Direction
  | up
  | down
deriving DecidableEq

def Direction.delta : Direction → Int32
  | up => 1
  | down => -1

inductive Operation
  | writeBit (dst : Int16) (value : Bool)
  | copyBit (dst src : Int16)
  | setLiteral (dst : Int16) (value : Int32)
  | setVariable (dst src : Int16)
  | count (dst : Int16) (direction : Direction)
  | arithmetic (kind : Arithmetic) (dst lhs rhs : Int16)
  | unlessBit (bit : Int16) (expected : Bool) (target : Int16)
  | unlessLiteral (comparison : Comparison) (lhs : Int16) (literal : Int32) (target : Int16)
  | unlessCompare (comparison : Comparison) (lhs rhs target : Int16)
  | jump (target : Int16)
  | endOfProgram
  | marker (kind : Marker) (tag : Int16)
  | unsupported (code : Int16)
deriving DecidableEq

namespace Operation

def ofOpcode (opcode : Opcode) (i : Instruction) : Operation :=
  match opcode with
  | .setBit => writeBit i.first true
  | .clearBit => writeBit i.first false
  | .copyBit => copyBit i.first i.second
  | .setLiteral => setLiteral i.first i.literal
  | .setVariable => setVariable i.first i.second
  | .increment => count i.first .up
  | .decrement => count i.first .down
  | .add => arithmetic .add i.first i.second i.third
  | .subtract => arithmetic .subtract i.first i.second i.third
  | .multiply => arithmetic .multiply i.first i.second i.third
  | .divide => arithmetic .divide i.first i.second i.third
  | .modulo => arithmetic .modulo i.first i.second i.third
  | .ifBitSet => unlessBit i.first true i.third
  | .ifBitClear => unlessBit i.first false i.third
  | .ifLessLiteral => unlessLiteral .less i.first i.literal i.third
  | .ifEqual => unlessCompare .equal i.first i.second i.third
  | .ifGreater => unlessCompare .greater i.first i.second i.third
  | .ifGreaterOrEqual => unlessCompare .greaterOrEqual i.first i.second i.third
  | .ifLessOrEqual => unlessCompare .lessOrEqual i.first i.second i.third
  | .ifNotEqual => unlessCompare .notEqual i.first i.second i.third
  | .jump => jump i.third
  | .forwardAllocated => marker .forwardAllocated i.first
  | .knownAllocated => marker .knownAllocated i.first
  | .forwardResolved => marker .forwardResolved i.first
  | .endOfProgram => endOfProgram

end Operation

def Instruction.decode (i : Instruction) : Operation :=
  match Opcode.ofCode? i.code with
  | some opcode => .ofOpcode opcode i
  | none => .unsupported i.code

namespace Operation

def jumpTarget? : Operation → Option Int16
  | unlessBit _ _ target => some target
  | unlessLiteral _ _ _ target => some target
  | unlessCompare _ _ _ target => some target
  | jump target => some target
  | _ => none

/-- Memory operands with their banks, destination first. -/
def operands : Operation → List (Bank × Int16)
  | writeBit dst _ => [(.bit, dst)]
  | copyBit dst src => [(.bit, dst), (.bit, src)]
  | setLiteral dst _ => [(.int, dst)]
  | setVariable dst src => [(.int, dst), (.int, src)]
  | count dst _ => [(.int, dst)]
  | arithmetic _ dst lhs rhs => [(.int, dst), (.int, lhs), (.int, rhs)]
  | unlessBit bit _ _ => [(.bit, bit)]
  | unlessLiteral _ lhs _ _ => [(.int, lhs)]
  | unlessCompare _ lhs rhs _ => [(.int, lhs), (.int, rhs)]
  | jump _ => []
  | endOfProgram => []
  | marker _ _ => []
  | unsupported _ => []

def isUnsupported : Operation → Bool
  | unsupported _ => true
  | _ => false

theorem isUnsupported_iff {o : Operation} :
    o.isUnsupported = true ↔ ∃ code, o = .unsupported code := by
  cases o <;> simp [isUnsupported]

instance (o : Operation) : Decidable (∃ code, o = .unsupported code) :=
  decidable_of_iff _ isUnsupported_iff

end Operation

theorem Instruction.decode_eq_endOfProgram_iff (i : Instruction) :
    i.decode = .endOfProgram ↔ i.code = Opcode.endOfProgram.code := by
  unfold Instruction.decode
  cases h : Opcode.ofCode? i.code with
  | none =>
    refine ⟨fun hd => by simp at hd, fun hc => ?_⟩
    rw [hc, Opcode.ofCode?_code] at h
    exact absurd h (by simp)
  | some o =>
    have ho := Opcode.code_of_ofCode? h
    constructor
    · intro hd
      cases o <;> first | exact ho.symm | simp [Operation.ofOpcode] at hd
    · intro hc
      rw [hc, Opcode.ofCode?_code] at h
      cases h
      rfl

end LadderMachine
