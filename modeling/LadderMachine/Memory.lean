import LadderMachine.Disassembly
import LadderMachine.Geometry

/-!
# Memory

Two banks of cells whose sizes never change. The host addresses cells by number and is told when an
address lies outside its bank; instructions address them by raw operand, and an operand that names no
cell leaves memory as it is. The lemmas say what each operation does to the cells of either bank.
-/

namespace LadderMachine

structure AddressError where
  bank : Bank
  address : Nat
  capacity : Nat
deriving DecidableEq

def AddressError.message (e : AddressError) : String :=
  e.bank.label ++ "[" ++ toString e.address ++ "] outside memory of " ++ toString e.capacity ++
    " cells"

structure Memory where
  bits : Array Bool
  integers : Array Int32
deriving DecidableEq

namespace Memory

def zero (bits integers : Nat) : Memory := ⟨.replicate bits false, .replicate integers 0⟩

def ofGeometry (g : Geometry) : Memory := zero g.bits g.integers

def capacity (m : Memory) : Bank → Nat
  | .bit => m.bits.size
  | .int => m.integers.size

def bit? (m : Memory) (address : Nat) : Option Bool := m.bits[address]?

def integer? (m : Memory) (address : Nat) : Option Int32 := m.integers[address]?

def setBit? (m : Memory) (address : Nat) (value : Bool) : Option Memory :=
  if address < m.bits.size then some { m with bits := m.bits.setIfInBounds address value } else none

def setInteger? (m : Memory) (address : Nat) (value : Int32) : Option Memory :=
  if address < m.integers.size then
    some { m with integers := m.integers.setIfInBounds address value }
  else none

/-- The error of an access to `address` in a bank of this memory. -/
def outside (m : Memory) (bank : Bank) (address : Nat) : AddressError :=
  ⟨bank, address, m.capacity bank⟩

def writeBit (m : Memory) (address : Nat) (value : Bool) : Except AddressError Memory :=
  match m.setBit? address value with
  | some m' => .ok m'
  | none => .error (m.outside .bit address)

def writeInteger (m : Memory) (address : Nat) (value : Int32) : Except AddressError Memory :=
  match m.setInteger? address value with
  | some m' => .ok m'
  | none => .error (m.outside .int address)

def clear (m : Memory) : Memory := zero m.bits.size m.integers.size

def loadBit (m : Memory) (operand : Int16) : Option Bool :=
  (operandAddress? operand).bind m.bit?

def storeBit (m : Memory) (operand : Int16) (value : Bool) : Option Memory :=
  (operandAddress? operand).bind fun address => m.setBit? address value

def loadInteger (m : Memory) (operand : Int16) : Option Int32 :=
  (operandAddress? operand).bind m.integer?

def storeInteger (m : Memory) (operand : Int16) (value : Int32) : Option Memory :=
  (operandAddress? operand).bind fun address => m.setInteger? address value

def bitLine (address : Nat) : String := "bits[" ++ Hexadecimal.padded 3 address ++ "]   = 1"

def integerLine (address : Nat) (value : Int32) : String :=
  "int16s[" ++ Hexadecimal.padded 3 address ++ "] = " ++ integerText value.toInt

/-- One line for each set bit, then one for each integer other than zero, by increasing address. -/
def dumpLines (m : Memory) : List String :=
  (m.bits.toList.zipIdx.filterMap fun c => if c.1 then some (bitLine c.2) else none) ++
    m.integers.toList.zipIdx.filterMap fun c =>
      if c.1 ≠ 0 then some (integerLine c.2 c.1) else none

def dump (m : Memory) : String := String.join (m.dumpLines.map (· ++ "\n"))

theorem capacity_setBit? {m m' : Memory} {a : Nat} {v : Bool} (h : m.setBit? a v = some m')
    (b : Bank) : m'.capacity b = m.capacity b := by
  unfold setBit? at h
  split at h
  · cases h; cases b <;> simp [capacity]
  · exact absurd h (by simp)

theorem capacity_setInteger? {m m' : Memory} {a : Nat} {v : Int32}
    (h : m.setInteger? a v = some m') (b : Bank) : m'.capacity b = m.capacity b := by
  unfold setInteger? at h
  split at h
  · cases h; cases b <;> simp [capacity]
  · exact absurd h (by simp)

theorem bit?_setBit? {m m' : Memory} {a : Nat} {v : Bool} (h : m.setBit? a v = some m') (n : Nat) :
    m'.bit? n = if a = n then some v else m.bit? n := by
  unfold setBit? at h
  split at h
  · cases h
    simp only [bit?, Array.getElem?_setIfInBounds]
    split <;> simp_all
  · exact absurd h (by simp)

theorem integer?_setInteger? {m m' : Memory} {a : Nat} {v : Int32}
    (h : m.setInteger? a v = some m') (n : Nat) :
    m'.integer? n = if a = n then some v else m.integer? n := by
  unfold setInteger? at h
  split at h
  · cases h
    simp only [integer?, Array.getElem?_setIfInBounds]
    split <;> simp_all
  · exact absurd h (by simp)

theorem integers_setBit? {m m' : Memory} {a : Nat} {v : Bool} (h : m.setBit? a v = some m') :
    m'.integers = m.integers := by
  unfold setBit? at h
  split at h
  · cases h; rfl
  · exact absurd h (by simp)

theorem bits_setInteger? {m m' : Memory} {a : Nat} {v : Int32} (h : m.setInteger? a v = some m') :
    m'.bits = m.bits := by
  unfold setInteger? at h
  split at h
  · cases h; rfl
  · exact absurd h (by simp)

theorem setBit?_isSome_iff (m : Memory) (a : Nat) (v : Bool) :
    (m.setBit? a v).isSome ↔ a < m.bits.size := by
  unfold setBit?
  split <;> simp [*]

theorem setInteger?_isSome_iff (m : Memory) (a : Nat) (v : Int32) :
    (m.setInteger? a v).isSome ↔ a < m.integers.size := by
  unfold setInteger?
  split <;> simp [*]

theorem capacity_clear (m : Memory) (b : Bank) : m.clear.capacity b = m.capacity b := by
  cases b <;> simp [clear, zero, capacity]

end Memory

end LadderMachine
