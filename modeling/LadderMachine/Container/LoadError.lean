import LadderMachine.Files
import LadderMachine.Program

/-!
# Why a container is refused

Lines are numbered from one. A fault in a line carries its number and, where it is short enough to be
of use, the offending text.
-/

namespace LadderMachine

inductive LoadError
  | unreadable (path : String) (fault : ReadFault)
  /-- The first byte beyond ASCII. -/
  | notText (offset : Nat)
  | badSignature
  | badRecordLength (line actual : Nat)
  | badHexDigit (line : Nat) (digit : Char)
  /-- The text ends among the instruction records. -/
  | truncated
  | programTooLarge (capacity : Nat)
  | malformedMapping (line : Nat) (text : String)
  | mappingOutOfRange (line : Nat) (name : String) (bank : Bank) (address capacity : Nat)
  | invalidCycleTime (line : Nat) (text : String)
  | program (error : ProgramError)
deriving DecidableEq

namespace LoadError

def message : LoadError → String
  | unreadable path fault => "couldn't open '" ++ path ++ "': " ++ fault.message
  | notText offset => "container is not ASCII text (byte " ++ toString offset ++ ")"
  | badSignature => "bad program format: missing `$$LDcode` signature"
  | badRecordLength line actual =>
    "line " ++ toString line ++ ": instruction record must be 24 hex digits, got " ++
      toString actual
  | badHexDigit line digit =>
    "line " ++ toString line ++ ": invalid hex digit " ++ Text.quotedChar digit
  | truncated => "unexpected end of input before `$$bits`, `$$int16s` or `$$cycle`"
  | programTooLarge capacity =>
    "program needs more than " ++ toString capacity ++ " instruction slots"
  | malformedMapping line text =>
    "line " ++ toString line ++ ": malformed variable mapping " ++ Text.quoted text
  | mappingOutOfRange line name bank address capacity =>
    "line " ++ toString line ++ ": " ++ name ++ " maps to " ++ bank.label ++ "[" ++
      toString address ++ "], outside memory of " ++ toString capacity ++ " cells"
  | invalidCycleTime line text =>
    "line " ++ toString line ++ ": invalid cycle time " ++ Text.quoted text
  | program error => error.message

end LoadError

end LadderMachine
