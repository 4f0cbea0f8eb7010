import LadderMachine.Container.Line
import LadderMachine.Container.LoadError
import LadderMachine.Record

/-!
# The instruction records of a container

The records stand one a line after the signature. They end at the first heading or cycle line; until
then every line is taken to be a record, also a blank one or an unknown sentinel. The number of slots
is checked before the record that would exceed it is looked at.
-/

namespace LadderMachine.Container

structure CodeSection where
  instructions : List Instruction
  /-- Bank selected by the line that ended the records. -/
  bank : Bank
  /-- Cycle time given by that line. -/
  cycleTime : Option UInt64
  next : Nat
  rest : List (List Char)

def readRecord (number : Nat) (line : List Char) : Except LoadError Instruction :=
  match Instruction.ofHex line with
  | .ok i => .ok i
  | .error (.length actual) => .error (.badRecordLength number actual)
  | .error (.digit c) => .error (.badHexDigit number c)

def readCycleTime (number : Nat) (line suffix : List Char) : Except LoadError (Option UInt64) :=
  match cycleTime? suffix with
  | some time => .ok time
  | none => .error (.invalidCycleTime number (String.ofList line))

/-- Reads records from the line with the given number on, after `count` others. -/
def readCode (capacity count number : Nat) : List (List Char) → Except LoadError CodeSection
  | [] => .error .truncated
  | line :: rest =>
    match Line.classify line with
    | .heading bank => .ok ⟨[], bank, none, number + 1, rest⟩
    | .cycle suffix =>
      match readCycleTime number line suffix with
      | .error e => .error e
      | .ok time => .ok ⟨[], .bit, time, number + 1, rest⟩
    | _ =>
      if count = capacity then .error (.programTooLarge capacity)
      else match readRecord number line with
        | .error e => .error e
        | .ok i =>
          match readCode capacity (count + 1) (number + 1) rest with
          | .error e => .error e
          | .ok code => .ok { code with instructions := i :: code.instructions }

end LadderMachine.Container
