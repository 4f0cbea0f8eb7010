import LadderMachine.Bank
import LadderMachine.Text.Decimal

/-!
# Pins

A variable whose name is `X`, `Y` or `A` followed by decimal digits stands for a digital input, a
digital output or an analog channel. Pin numbers saturate at the largest 64-bit number, which lies
beyond every table. Each kind of pin has a table of fixed capacity from pin numbers to addresses.
-/

namespace LadderMachine

inductive PinKind
  | input
  | output
  | analog
deriving DecidableEq

namespace PinKind

def letter : PinKind → Char
  | input => 'X'
  | output => 'Y'
  | analog => 'A'

def ofLetter? : Char → Option PinKind
  | 'X' => some input
  | 'Y' => some output
  | 'A' => some analog
  | _ => none

def bank : PinKind → Bank
  | input => .bit
  | output => .bit
  | analog => .int

theorem ofLetter?_eq_some_iff (c : Char) (k : PinKind) : ofLetter? c = some k ↔ c = k.letter := by
  unfold ofLetter?
  split <;> cases k <;> simp_all [letter]

end PinKind

structure Pin where
  kind : PinKind
  index : Nat
deriving DecidableEq

namespace Pin

def maxIndex : Nat := UInt64.size - 1

/-- The pin with the given name, if the name is one of a pin. -/
def ofName? : List Char → Option Pin
  | [] => none
  | c :: digits => do
    let kind ← PinKind.ofLetter? c
    let n ← Decimal.value? digits
    some ⟨kind, min n maxIndex⟩

def name (p : Pin) : String := String.ofList (p.kind.letter :: Nat.toDigits 10 p.index)

theorem ofName?_name (p : Pin) (h : p.index ≤ maxIndex) : ofName? p.name.toList = some p := by
  have hk : PinKind.ofLetter? p.kind.letter = some p.kind :=
    (PinKind.ofLetter?_eq_some_iff _ _).2 rfl
  simp [name, ofName?, hk, Decimal.value?_toDigits, Nat.min_eq_left h]

end Pin

structure PinCounts where
  inputs : Nat := 16
  outputs : Nat := 2
  analogs : Nat := 1
deriving DecidableEq

structure PinMap where
  inputs : Array (Option Nat)
  outputs : Array (Option Nat)
  analogs : Array (Option Nat)
deriving DecidableEq

namespace PinMap

def ofCounts (c : PinCounts) : PinMap :=
  ⟨.replicate c.inputs none, .replicate c.outputs none, .replicate c.analogs none⟩

def table (m : PinMap) : PinKind → Array (Option Nat)
  | .input => m.inputs
  | .output => m.outputs
  | .analog => m.analogs

def capacity (m : PinMap) (kind : PinKind) : Nat := (m.table kind).size

/-- Whether a pin has a place in its table. -/
def covers (m : PinMap) (pin : Pin) : Bool := pin.index < m.capacity pin.kind

/-- Maps a pin to an address; a pin beyond its table is left out. -/
def insert (m : PinMap) (pin : Pin) (address : Nat) : PinMap :=
  match pin.kind with
  | .input => { m with inputs := m.inputs.setIfInBounds pin.index (some address) }
  | .output => { m with outputs := m.outputs.setIfInBounds pin.index (some address) }
  | .analog => { m with analogs := m.analogs.setIfInBounds pin.index (some address) }

def get? (m : PinMap) (kind : PinKind) (index : Nat) : Option Nat := (m.table kind)[index]?.join

/-- Mapped pins with their addresses in the order of their numbers. -/
def mapped (m : PinMap) (kind : PinKind) : List (Nat × Nat) :=
  (m.table kind).toList.zipIdx.filterMap fun e => e.1.map (e.2, ·)

theorem capacity_insert (m : PinMap) (pin : Pin) (address : Nat) (kind : PinKind) :
    (m.insert pin address).capacity kind = m.capacity kind := by
  unfold insert
  split <;> cases kind <;> simp [capacity, table]

theorem get?_insert (m : PinMap) (pin : Pin) (address : Nat) (kind : PinKind) (index : Nat) :
    (m.insert pin address).get? kind index =
      if pin = ⟨kind, index⟩ ∧ index < m.capacity kind then some address
      else m.get? kind index := by
  obtain ⟨k, i⟩ := pin
  cases k <;> cases kind <;>
    simp only [insert, get?, table, capacity, Pin.mk.injEq, reduceCtorEq, true_and, false_and,
      if_false, Array.getElem?_setIfInBounds]
  all_goals split <;> grind

end PinMap

end LadderMachine
