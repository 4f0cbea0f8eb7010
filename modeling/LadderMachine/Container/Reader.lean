import LadderMachine.Container.Metadata
import LadderMachine.Text.Lines

/-!
# Reading containers

A container is read line by line: the signature, the instruction records, the metadata. Its program is
validated last, so an image is either complete or not there at all. Containers given as bytes have to
be ASCII.
-/

namespace LadderMachine.Container

def finish (g : Geometry) (instructions : List Instruction) (s : Metadata) :
    Logged (Except LoadError Image) :=
  match Program.validate instructions g with
  | .error e => ⟨.error (.program e), []⟩
  | .ok program =>
    ⟨.ok { program, pins := s.pins, symbols := s.symbols, cycleTime := s.cycleTime },
      [.loaded instructions.length (s.symbols.size .bit) (s.symbols.size .int) s.cycleTime]⟩

/-- Metadata before the first line behind the records. -/
def CodeSection.metadata (code : CodeSection) (config : Config) : Metadata where
  bank := code.bank
  cycleTime := code.cycleTime.getD config.cycleTime
  pins := .ofCounts config.pins

def CodeSection.complete (code : CodeSection) (config : Config) : Logged (Except LoadError Image) :=
  let r := Metadata.readLines config.geometry code.next code.rest (code.metadata config)
  match r.value with
  | .error e => ⟨.error e, r.events⟩
  | .ok s =>
    let f := finish config.geometry code.instructions s
    ⟨f.value, r.events ++ f.events⟩

def readLines (config : Config) : List (List Char) → Logged (Except LoadError Image)
  | [] => ⟨.error .badSignature, []⟩
  | first :: rest =>
    if first = signature then
      match readCode config.geometry.programCapacity 0 2 rest with
      | .error e => ⟨.error e, []⟩
      | .ok code => code.complete config
    else ⟨.error .badSignature, []⟩

def read (text : String) (config : Config) : Logged (Except LoadError Image) :=
  readLines config (Text.lines text.toList)

def readBytes (bytes : ByteArray) (config : Config) : Logged (Except LoadError Image) :=
  match bytes.toList.findIdx? (0x80 ≤ ·) with
  | some offset => ⟨.error (.notText offset), []⟩
  | none => readLines config (Text.lines (bytes.toList.map fun b => Char.ofNat b.toNat))

/-- Reads a container from the contents of a file, or from the reason why there are none. -/
def readContents (path : String) (contents : Except ReadFault ByteArray) (config : Config) :
    Logged (Except LoadError Image) :=
  match contents with
  | .error fault => ⟨.error (.unreadable path fault), []⟩
  | .ok bytes =>
    let r := readBytes bytes config
    ⟨r.value, .loading path bytes.size :: r.events⟩

end LadderMachine.Container
