import Mathlib.Logic.Function.Basic
import LadderMachine.Proofs.Machine.Counters

/-!
# The instruction table

The meaning of instruction records by the numbers of their codes, as a machine of its own: records are
not decoded, integers are numbers, and every number is the address of a cell. `Cells` stand for memory,
`perform` is the table, and `run` follows it from record to record. What it counts is what the
statistics of the machine count.
-/

namespace LadderMachine

structure Cells where
  bit : Int → Bool
  integer : Int → Int

namespace Cells

def setBit (c : Cells) (address : Int) (value : Bool) : Cells :=
  { c with bit := Function.update c.bit address value }

def setInteger (c : Cells) (address value : Int) : Cells :=
  { c with integer := Function.update c.integer address value }

theorem bit_setBit (c : Cells) (address other : Int) (value : Bool) :
    (c.setBit address value).bit other = if other = address then value else c.bit other :=
  Function.update_apply ..

theorem integer_setInteger (c : Cells) (address other value : Int) :
    (c.setInteger address value).integer other =
      if other = address then value else c.integer other :=
  Function.update_apply ..

/-- Cells that hold what is in memory; addresses outside memory may hold anything. -/
structure Shows (c : Cells) (m : Memory) : Prop where
  bit {n : Nat} {value : Bool} (h : m.bit? n = some value) : c.bit n = value
  integer {n : Nat} {value : Int32} (h : m.integer? n = some value) : c.integer n = value.toInt

def ofMemory (m : Memory) : Cells where
  bit address := (address.toNat?.bind m.bit?).getD false
  integer address := ((address.toNat?.bind m.integer?).map Int32.toInt).getD 0

theorem shows_ofMemory (m : Memory) : (ofMemory m).Shows m where
  bit h := by simp [ofMemory, Int.toNat?, h]
  integer h := by simp [ofMemory, Int.toNat?, h]

end Cells

namespace Table

/-- The number in the range of signed 32-bit words that differs from `n` by a multiple of `2 ^ 32`. -/
def wrap (n : Int) : Int := n.bmod 4294967296

inductive Control
  | fall
  | goto (target : Int)
  | finish
deriving DecidableEq

def unlessHolds (condition : Bool) (target : Int) : Control :=
  if condition then .fall else .goto target

/-- The table: what the record does to the cells, and where control goes. -/
def perform (i : Instruction) (c : Cells) : Cells × Control :=
  let n₁ := i.first.toInt
  let n₂ := i.second.toInt
  let n₃ := i.third.toInt
  let literal := i.literal.toInt
  match i.code.toInt with
  | 1 => (c.setBit n₁ true, .fall)
  | 2 => (c.setBit n₁ false, .fall)
  | 3 => (c.setBit n₁ (c.bit n₂), .fall)
  | 4 => (c.setInteger n₁ literal, .fall)
  | 5 => (c.setInteger n₁ (c.integer n₂), .fall)
  | 6 => (c.setInteger n₁ (wrap (c.integer n₁ + 1)), .fall)
  | 7 => (c.setInteger n₁ (wrap (c.integer n₂ + c.integer n₃)), .fall)
  | 8 => (c.setInteger n₁ (wrap (c.integer n₂ - c.integer n₃)), .fall)
  | 9 => (c.setInteger n₁ (wrap (c.integer n₂ * c.integer n₃)), .fall)
  | 10 =>
    (if c.integer n₃ = 0 then c
      else c.setInteger n₁ (wrap ((c.integer n₂).tdiv (c.integer n₃))), .fall)
  | 18 => (c.setInteger n₁ (wrap (c.integer n₁ - 1)), .fall)
  | 19 =>
    (if c.integer n₃ = 0 then c
      else c.setInteger n₁ (wrap ((c.integer n₂).tmod (c.integer n₃))), .fall)
  | 50 => (c, unlessHolds (c.bit n₁ = true) n₃)
  | 51 => (c, unlessHolds (c.bit n₁ = false) n₃)
  | 52 => (c, unlessHolds (c.integer n₁ < literal) n₃)
  | 53 => (c, unlessHolds (c.integer n₁ = c.integer n₂) n₃)
  | 54 => (c, unlessHolds (c.integer n₁ > c.integer n₂) n₃)
  | 55 => (c, unlessHolds (c.integer n₁ ≥ c.integer n₂) n₃)
  | 56 => (c, unlessHolds (c.integer n₁ ≤ c.integer n₂) n₃)
  | 57 => (c, unlessHolds (c.integer n₁ ≠ c.integer n₂) n₃)
  | 60 => (c, .goto n₃)
  | 255 => (c, .finish)
  | _ => (c, .fall)

/-- The codes that have a meaning; those from 70 to 72 are notes that mean nothing when executed. -/
def known : List Int :=
  [1, 2, 3, 4, 5, 6, 7, 8, 9, 10, 18, 19, 50, 51, 52, 53, 54, 55, 56, 57, 60, 70, 71, 72, 255]

def count (i : Instruction) (c : Cells) : Statistics where
  instructions := 1
  divisionsByZero :=
    if (i.code.toInt = 10 ∨ i.code.toInt = 19) ∧ c.integer i.third.toInt = 0 then 1 else 0
  unsupportedOperations := if i.code.toInt ∈ known then 0 else 1

inductive Ending
  | finished
  | pastEnd
deriving DecidableEq

structure Point where
  cells : Cells
  pc : Int := 0
  counted : Statistics := {}

/-- Follows the table from record to record, or answers `none` if the run is not over within the given
number of records. -/
def run (records : List Instruction) : Nat → Point → Option (Ending × Point)
  | 0, _ => none
  | fuel + 1, p =>
    match p.pc.toNat?.bind (records[·]?) with
    | none => some (.pastEnd, p)
    | some i =>
      let r := perform i p.cells
      let counted := p.counted + count i p.cells
      match r.2 with
      | .fall => run records fuel ⟨r.1, p.pc + 1, counted⟩
      | .goto target => run records fuel ⟨r.1, target, counted + { jumpsTaken := 1 }⟩
      | .finish => some (.finished, ⟨r.1, p.pc, counted⟩)

end Table

end LadderMachine
