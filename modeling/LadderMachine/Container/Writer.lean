import LadderMachine.Container.Line
import LadderMachine.Image
import LadderMachine.Record
import LadderMachine.Text.Lines

/-!
# Writing containers

A written container holds the signature, the records, the names of both banks under their headings in
name order, and the cycle time. Names of pins are written like any other, and fill the pin tables again
when the container is read.
-/

namespace LadderMachine.Container

def mappingLine (entry : String × Nat) : List Char :=
  entry.1.toList ++ ',' :: Nat.toDigits 10 entry.2

def bankLines (symbols : Symbols) (bank : Bank) : List (List Char) :=
  heading bank :: (symbols.entries bank).map mappingLine

def writtenLines (instructions : List Instruction) (symbols : Symbols) (cycleTime : UInt64) :
    List (List Char) :=
  signature :: instructions.map Instruction.toHex ++ bankLines symbols .bit ++
    bankLines symbols .int ++ [cycleMark ++ Nat.toDigits 10 cycleTime.toNat]

def write (instructions : List Instruction) (symbols : Symbols) (cycleTime : UInt64) : String :=
  String.ofList (Text.unlines (writtenLines instructions symbols cycleTime))

def writeImage (image : Image) : String :=
  write image.program.instructions.toList image.symbols image.cycleTime

end LadderMachine.Container
