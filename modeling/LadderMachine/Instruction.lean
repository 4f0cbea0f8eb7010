import LadderMachine.Opcode

/-!
# Instruction records

An instruction has a code, three 16-bit operands and a 32-bit literal. Which operands count, and
whether they are bit addresses, integer addresses or a jump target, depends on the code.
-/

namespace LadderMachine

structure Instruction where
  code : Int16
  first : Int16
  second : Int16
  third : Int16
  literal : Int32
deriving DecidableEq

namespace Instruction

def setBit (address : Int16) : Instruction := ⟨Opcode.setBit.code, address, 0, 0, 0⟩

def clearBit (address : Int16) : Instruction := ⟨Opcode.clearBit.code, address, 0, 0, 0⟩

def copyBit (dst src : Int16) : Instruction := ⟨Opcode.copyBit.code, dst, src, 0, 0⟩

def setLiteral (dst : Int16) (value : Int32) : Instruction :=
  ⟨Opcode.setLiteral.code, dst, 0, 0, value⟩

def setVariable (dst src : Int16) : Instruction := ⟨Opcode.setVariable.code, dst, src, 0, 0⟩

def increment (dst : Int16) : Instruction := ⟨Opcode.increment.code, dst, 0, 0, 0⟩

def decrement (dst : Int16) : Instruction := ⟨Opcode.decrement.code, dst, 0, 0, 0⟩

/-- Three-address arithmetic with the operation of the given code. -/
def arithmetic (code dst lhs rhs : Int16) : Instruction := ⟨code, dst, lhs, rhs, 0⟩

def ifBitSet (address target : Int16) : Instruction :=
  ⟨Opcode.ifBitSet.code, address, 0, target, 0⟩

def ifBitClear (address target : Int16) : Instruction :=
  ⟨Opcode.ifBitClear.code, address, 0, target, 0⟩

/-- Jumps unless the variable is below the literal. -/
def ifLessLiteral (lhs : Int16) (literal : Int32) (target : Int16) : Instruction :=
  ⟨Opcode.ifLessLiteral.code, lhs, 0, target, literal⟩

/-- Jumps unless the comparison of the given code holds between two variables. -/
def ifCompare (code lhs rhs target : Int16) : Instruction := ⟨code, lhs, rhs, target, 0⟩

def jump (target : Int16) : Instruction := ⟨Opcode.jump.code, 0, 0, target, 0⟩

def endOfProgram : Instruction := ⟨Opcode.endOfProgram.code, 0, 0, 0, 0⟩

end Instruction

end LadderMachine
