import LadderMachine.Config
import LadderMachine.Container.Code
import LadderMachine.Event
import LadderMachine.Image

/-!
# Metadata of a container

Behind the records, headings select the bank of the names that follow, cycle lines set the cycle time,
and a data line maps a name to an address. The name of a pin belongs to the pin's own bank whatever
the heading says, and also fills the pin's table. Of two lines for one name, or one pin, the later one
counts.
-/

namespace LadderMachine.Container

/-- A data line: a name and an address, separated by the first comma. -/
structure Mapping where
  name : List Char
  address : Nat
deriving DecidableEq

namespace Mapping

/-- Reads a data line; space around the name and the address does not belong to them. -/
def ofLine? (line : List Char) : Option Mapping :=
  match line.dropWhile (· ≠ ',') with
  | [] => none
  | _ :: after =>
    let name := Text.trim (line.takeWhile (· ≠ ','))
    if name = [] then none else (Decimal.word? (Text.trim after)).map fun n => ⟨name, n⟩

def pin? (m : Mapping) : Option Pin := Pin.ofName? m.name

def bank (m : Mapping) (selected : Bank) : Bank :=
  match m.pin? with
  | some pin => pin.kind.bank
  | none => selected

def label (m : Mapping) : String := String.ofList m.name

end Mapping

structure Metadata where
  /-- Bank of the names that are not those of pins. -/
  bank : Bank
  cycleTime : UInt64
  pins : PinMap
  symbols : Symbols := {}
deriving DecidableEq

namespace Metadata

def withCycleTime (s : Metadata) (time : Option UInt64) : Metadata :=
  { s with cycleTime := time.getD s.cycleTime }

def remapEvents (s : Metadata) (number : Nat) (m : Mapping) : List Event :=
  match s.symbols.get? (m.bank s.bank) m.label with
  | some previous => [.remapped number m.label previous m.address]
  | none => []

def pinEvents (s : Metadata) (number : Nat) (m : Mapping) : List Event :=
  match m.pin? with
  | some pin => if s.pins.covers pin then [] else [.pinBeyondTable number m.label]
  | none => []

/-- Enters a mapping into the table of its bank and, for a pin, into the pin table. -/
def enter (s : Metadata) (m : Mapping) : Metadata :=
  { s with
    symbols := s.symbols.insert (m.bank s.bank) m.label m.address
    pins := match m.pin? with
      | some pin => s.pins.insert pin m.address
      | none => s.pins }

def readMapping (g : Geometry) (number : Nat) (line : List Char) (s : Metadata) :
    Except LoadError (Logged Metadata) :=
  match Mapping.ofLine? line with
  | none => .error (.malformedMapping number (String.ofList line))
  | some m =>
    let bank := m.bank s.bank
    if m.address < g.capacity bank then
      .ok ⟨s.enter m, s.remapEvents number m ++ s.pinEvents number m⟩
    else .error (.mappingOutOfRange number m.label bank m.address (g.capacity bank))

def readLine (g : Geometry) (number : Nat) (line : List Char) (s : Metadata) :
    Except LoadError (Logged Metadata) :=
  match Line.classify line with
  | .blank => .ok ⟨s, []⟩
  | .heading bank => .ok ⟨{ s with bank }, []⟩
  | .cycle suffix =>
    match readCycleTime number line suffix with
    | .error e => .error e
    | .ok time => .ok ⟨s.withCycleTime time, []⟩
  | .sentinel => .ok ⟨s, [.ignoredSentinel number (String.ofList line)]⟩
  | .data => s.readMapping g number line

/-- Takes in lines from the given number on. The first faulty line ends the reading, and what was
reported before it is kept. -/
def readLines (g : Geometry) : Nat → List (List Char) → Metadata → Logged (Except LoadError Metadata)
  | _, [], s => ⟨.ok s, []⟩
  | number, line :: rest, s =>
    match s.readLine g number line with
    | .error e => ⟨.error e, []⟩
    | .ok ⟨s', events⟩ =>
      let r := readLines g (number + 1) rest s'
      ⟨r.value, events ++ r.events⟩

end Metadata

end LadderMachine.Container
