import LadderMachine.Geometry
import LadderMachine.Listing

/-!
# Programs

A program is an array of instructions that fits a geometry: it has room in the instruction slots, it
holds exactly one end marker, each jump names one of its instructions, and each memory operand of a
supported instruction names a cell of its bank. Unsupported instructions are accepted as they are,
because their operands are never used. `validate` builds programs and names the first fault.
-/

namespace LadderMachine

inductive ProgramError
  | jumpOutOfRange (pc : Nat) (target : Int16) (length : Nat)
  | addressOutOfRange (pc : Nat) (bank : Bank) (address : Int16) (capacity : Nat)
  | endMarkerCount (count : Nat)
  | tooLarge (length capacity : Nat)
deriving DecidableEq

def ProgramError.message : ProgramError → String
  | jumpOutOfRange pc target length =>
    "pc " ++ Hexadecimal.padded 3 pc ++ ": jump target " ++ integerText target.toInt ++
      " outside program of " ++ toString length ++ " instructions"
  | addressOutOfRange pc bank address capacity =>
    "pc " ++ Hexadecimal.padded 3 pc ++ ": " ++ bank.label ++ "[" ++ integerText address.toInt ++
      "] outside memory of " ++ toString capacity ++ " cells"
  | endMarkerCount count =>
    "program must contain exactly one end-of-program marker, found " ++ toString count
  | tooLarge length capacity =>
    "program has " ++ toString length ++ " instructions, capacity is " ++ toString capacity

namespace Operation

/-- A jump whose target is none of `length` instructions. -/
def jumpFault? (length pc : Nat) (op : Operation) : Option ProgramError :=
  op.jumpTarget?.bind fun target =>
    if operandFits target length then none else some (.jumpOutOfRange pc target length)

def operandFault? (g : Geometry) (pc : Nat) (op : Operation) : Option ProgramError :=
  op.operands.findSome? fun (bank, address) =>
    if operandFits address (g.capacity bank) then none
    else some (.addressOutOfRange pc bank address (g.capacity bank))

/-- The fault of one operation; a bad jump is named before a bad operand. -/
def fault? (g : Geometry) (length pc : Nat) (op : Operation) : Option ProgramError :=
  (op.jumpFault? length pc).or (op.operandFault? g pc)

end Operation

def endMarkerCount (instructions : List Instruction) : Nat :=
  instructions.countP fun i => i.decode = .endOfProgram

def firstFault? (g : Geometry) (instructions : List Instruction) : Option ProgramError :=
  let length := instructions.length
  instructions.zipIdx.findSome? fun (i, pc) => i.decode.fault? g length pc

structure Program where
  instructions : Array Instruction
deriving DecidableEq

namespace Program

def validate (instructions : List Instruction) (g : Geometry) : Except ProgramError Program :=
  if g.programCapacity < instructions.length then
    .error (.tooLarge instructions.length g.programCapacity)
  else if endMarkerCount instructions ≠ 1 then
    .error (.endMarkerCount (endMarkerCount instructions))
  else match firstFault? g instructions with
    | some fault => .error fault
    | none => .ok ⟨instructions.toArray⟩

def length (p : Program) : Nat := p.instructions.size

def fetch? (p : Program) (pc : Nat) : Option Instruction := p.instructions[pc]?

def listing (p : Program) : Listing := .ofInstructions p.instructions.toList

theorem instructions_of_validate {instructions : List Instruction} {g : Geometry} {p : Program}
    (h : validate instructions g = .ok p) : p.instructions.toList = instructions := by
  unfold validate at h
  split at h
  · exact absurd h (by simp)
  · split at h
    · exact absurd h (by simp)
    · split at h
      · exact absurd h (by simp)
      · cases h; simp

end Program

end LadderMachine
