import LadderMachine.Event

/-!
# Program listings

A listing shows the instructions from the first one up to and including the first end marker, each
with its address, and counts the unsupported codes among them.
-/

namespace LadderMachine

/-- The instructions up to and including the first end marker. -/
def throughEnd : List Instruction → List Instruction
  | [] => []
  | i :: rest => if i.decode = .endOfProgram then [i] else i :: throughEnd rest

structure UnsupportedCodes where
  count : Nat
deriving DecidableEq

def UnsupportedCodes.message (e : UnsupportedCodes) : String :=
  toString e.count ++ " unsupported opcode(s) for an interpretable target"

structure Listing where
  lines : List String
  badCodes : Nat
deriving DecidableEq

namespace Listing

def line (pc : Nat) (i : Instruction) : String := Hexadecimal.padded 3 pc ++ ": " ++ i.text

def ofInstructions (instructions : List Instruction) : Listing where
  lines := (throughEnd instructions).mapIdx line
  badCodes := (throughEnd instructions).countP fun i => i.decode.isUnsupported

def text (l : Listing) : String := String.join (l.lines.map (· ++ "\n"))

/-- A listing with unsupported codes is reported once, after it is complete. -/
def events (l : Listing) : List Event :=
  if 0 < l.badCodes then [.listedUnsupported l.badCodes] else []

/-- A listing with unsupported codes does not suit a program that is to be executed in full. -/
def check (l : Listing) : Except UnsupportedCodes Unit :=
  if 0 < l.badCodes then .error ⟨l.badCodes⟩ else .ok ()

end Listing

end LadderMachine
