/-!
# Operation codes

The codes that have a meaning to the machine. Assignments keep their historical low numbers and the
conditionals stand together from 50 on; every code that is not listed here is unsupported.
-/

namespace LadderMachine

inductive Opcode
  | setBit
  | clearBit
  | copyBit
  | setLiteral
  | setVariable
  | increment
  | add
  | subtract
  | multiply
  | divide
  | decrement
  | modulo
  | ifBitSet
  | ifBitClear
  | ifLessLiteral
  | ifEqual
  | ifGreater
  | ifGreaterOrEqual
  | ifLessOrEqual
  | ifNotEqual
  | jump
  | forwardAllocated
  | knownAllocated
  | forwardResolved
  | endOfProgram
deriving DecidableEq

namespace Opcode

def code : Opcode → Int16
  | setBit => 1
  | clearBit => 2
  | copyBit => 3
  | setLiteral => 4
  | setVariable => 5
  | increment => 6
  | add => 7
  | subtract => 8
  | multiply => 9
  | divide => 10
  | decrement => 18
  | modulo => 19
  | ifBitSet => 50
  | ifBitClear => 51
  | ifLessLiteral => 52
  | ifEqual => 53
  | ifGreater => 54
  | ifGreaterOrEqual => 55
  | ifLessOrEqual => 56
  | ifNotEqual => 57
  | jump => 60
  | forwardAllocated => 70
  | knownAllocated => 71
  | forwardResolved => 72
  | endOfProgram => 255

def ofCode? (code : Int16) : Option Opcode :=
  match code.toInt with
  | 1 => some setBit
  | 2 => some clearBit
  | 3 => some copyBit
  | 4 => some setLiteral
  | 5 => some setVariable
  | 6 => some increment
  | 7 => some add
  | 8 => some subtract
  | 9 => some multiply
  | 10 => some divide
  | 18 => some decrement
  | 19 => some modulo
  | 50 => some ifBitSet
  | 51 => some ifBitClear
  | 52 => some ifLessLiteral
  | 53 => some ifEqual
  | 54 => some ifGreater
  | 55 => some ifGreaterOrEqual
  | 56 => some ifLessOrEqual
  | 57 => some ifNotEqual
  | 60 => some jump
  | 70 => some forwardAllocated
  | 71 => some knownAllocated
  | 72 => some forwardResolved
  | 255 => some endOfProgram
  | _ => none

theorem ofCode?_code (o : Opcode) : ofCode? o.code = some o := by cases o <;> rfl

theorem code_of_ofCode? {c : Int16} {o : Opcode} (h : ofCode? c = some o) : o.code = c := by
  unfold ofCode? at h
  split at h <;> cases h <;> exact Int16.toInt_inj.1 (Eq.symm ‹c.toInt = _›)

end Opcode

end LadderMachine
