import LadderMachine.Proofs.Machine.History
import LadderMachine.Proofs.Machine.Table

/-!
# The machine follows the instruction table

An operation whose operands are cells does to memory what the table does to cells that show it, and
sends control the same way (`Matches`). A cycle without a step limit and a run of the table go from
point to point together, so one ends exactly if the other does, and in the same way.
-/

namespace LadderMachine

open Table

namespace Cells.Shows

variable {c : Cells} {m : Memory} {operand : Int16}

theorem loadBit (hc : c.Shows m) (hf : operandFits operand (m.capacity .bit) = true) :
    m.loadBit operand = some (c.bit operand.toInt) := by
  obtain ⟨v, hv⟩ := Memory.exists_loadBit_iff.2 hf
  obtain ⟨n, hn, hb⟩ := Option.bind_eq_some_iff.1 hv
  rw [hv, toInt_of_operandAddress? hn, hc.bit hb]

theorem loadInteger (hc : c.Shows m) (hf : operandFits operand (m.capacity .int) = true) :
    ∃ v, m.loadInteger operand = some v ∧ c.integer operand.toInt = v.toInt := by
  obtain ⟨v, hv⟩ := Memory.exists_loadInteger_iff.2 hf
  obtain ⟨n, hn, hi⟩ := Option.bind_eq_some_iff.1 hv
  exact ⟨v, hv, by rw [toInt_of_operandAddress? hn, hc.integer hi]⟩

theorem storeBit (hc : c.Shows m) (hf : operandFits operand (m.capacity .bit) = true) (v : Bool) :
    ∃ m', m.storeBit operand v = some m' ∧ (c.setBit operand.toInt v).Shows m' := by
  obtain ⟨m', hm⟩ := (Memory.exists_storeBit_iff v).2 hf
  obtain ⟨a, ha, hs⟩ := Option.bind_eq_some_iff.1 hm
  refine ⟨m', hm, ?_, ?_⟩
  · intro n w hw
    rw [Memory.bit?_setBit? hs] at hw
    rw [toInt_of_operandAddress? ha, bit_setBit]
    by_cases hn : a = n
    · rw [if_pos hn] at hw
      rw [if_pos (congrArg Nat.cast hn.symm), Option.some.inj hw]
    · rw [if_neg hn] at hw
      rw [if_neg fun h => hn (Int.ofNat_inj.1 h.symm), hc.bit hw]
  · intro n w hw
    rw [Memory.integer?, Memory.integers_setBit? hs] at hw
    exact hc.integer hw

theorem storeInteger (hc : c.Shows m) (hf : operandFits operand (m.capacity .int) = true)
    (v : Int32) :
    ∃ m', m.storeInteger operand v = some m' ∧ (c.setInteger operand.toInt v.toInt).Shows m' := by
  obtain ⟨m', hm⟩ := (Memory.exists_storeInteger_iff v).2 hf
  obtain ⟨a, ha, hs⟩ := Option.bind_eq_some_iff.1 hm
  refine ⟨m', hm, ?_, ?_⟩
  · intro n w hw
    rw [Memory.bit?, Memory.bits_setInteger? hs] at hw
    exact hc.bit hw
  · intro n w hw
    rw [Memory.integer?_setInteger? hs] at hw
    rw [toInt_of_operandAddress? ha, integer_setInteger]
    by_cases hn : a = n
    · rw [if_pos hn] at hw
      rw [if_pos (congrArg Nat.cast hn.symm), Option.some.inj hw]
    · rw [if_neg hn] at hw
      rw [if_neg fun h => hn (Int.ofNat_inj.1 h.symm), hc.integer hw]

end Cells.Shows

/-- Control as the table names it. -/
def Table.Control.ofFlow : Flow → Control
  | .next => .fall
  | .jump target => .goto target.toInt
  | .finish => .finish

/-- The effect of an operation is what the table says: cells, control and counters. -/
structure Effect.Matches (e : Effect) (r : Cells × Control) (counted : Statistics) : Prop where
  shows_memory : r.1.Shows e.memory
  control_eq : r.2 = .ofFlow e.flow
  gain_eq : e.gain = counted

namespace Operation

variable {c : Cells} {m : Memory}

theorem matches_writeBit {dst : Int16} {v : Bool} (hc : c.Shows m)
    (hf : (writeBit dst v).OperandsFit m.capacity) :
    ((writeBit dst v).execute m).Matches (c.setBit dst.toInt v, .fall) { instructions := 1 } := by
  obtain ⟨m', hm, hs⟩ := hc.storeBit (hf (.bit, dst) (by simp [operands])) v
  rw [execute, hm]
  exact ⟨hs, rfl, rfl⟩

theorem matches_copyBit {dst src : Int16} (hc : c.Shows m)
    (hf : (copyBit dst src).OperandsFit m.capacity) :
    ((copyBit dst src).execute m).Matches (c.setBit dst.toInt (c.bit src.toInt), .fall)
      { instructions := 1 } := by
  have hv := hc.loadBit (hf (.bit, src) (by simp [operands]))
  obtain ⟨m', hm, hs⟩ := hc.storeBit (hf (.bit, dst) (by simp [operands])) (c.bit src.toInt)
  rw [execute, hv, Option.bind_some, hm]
  exact ⟨hs, rfl, rfl⟩

theorem matches_setLiteral {dst : Int16} {v : Int32} (hc : c.Shows m)
    (hf : (setLiteral dst v).OperandsFit m.capacity) :
    ((setLiteral dst v).execute m).Matches (c.setInteger dst.toInt v.toInt, .fall)
      { instructions := 1 } := by
  obtain ⟨m', hm, hs⟩ := hc.storeInteger (hf (.int, dst) (by simp [operands])) v
  rw [execute, hm]
  exact ⟨hs, rfl, rfl⟩

theorem matches_setVariable {dst src : Int16} (hc : c.Shows m)
    (hf : (setVariable dst src).OperandsFit m.capacity) :
    ((setVariable dst src).execute m).Matches
      (c.setInteger dst.toInt (c.integer src.toInt), .fall) { instructions := 1 } := by
  obtain ⟨v, hv, hi⟩ := hc.loadInteger (hf (.int, src) (by simp [operands]))
  obtain ⟨m', hm, hs⟩ := hc.storeInteger (hf (.int, dst) (by simp [operands])) v
  rw [execute, hv, Option.bind_some, hm, hi]
  exact ⟨hs, rfl, rfl⟩

theorem matches_count {dst : Int16} {direction : Direction} (hc : c.Shows m)
    (hf : (count dst direction).OperandsFit m.capacity) :
    ((count dst direction).execute m).Matches
      (c.setInteger dst.toInt (wrap (c.integer dst.toInt + direction.delta.toInt)), .fall)
      { instructions := 1 } := by
  have hd := hf (.int, dst) (by simp [operands])
  obtain ⟨v, hv, hi⟩ := hc.loadInteger hd
  obtain ⟨m', hm, hs⟩ := hc.storeInteger hd (v + direction.delta)
  rw [Int32.toInt_add, ← hi] at hs
  rw [execute, hv, Option.bind_some, hm]
  exact ⟨hs, rfl, rfl⟩

/-- An arithmetic operation stores the number that it has for the values of its operands. -/
theorem matches_arithmetic {kind : Arithmetic} {dst lhs rhs : Int16} {n : Int} (hc : c.Shows m)
    (hf : (arithmetic kind dst lhs rhs).OperandsFit m.capacity)
    (happly : ∀ a b : Int32, c.integer lhs.toInt = a.toInt → c.integer rhs.toInt = b.toInt →
      ∃ v, kind.apply a b = some v ∧ v.toInt = n) :
    ((arithmetic kind dst lhs rhs).execute m).Matches (c.setInteger dst.toInt n, .fall)
      { instructions := 1 } := by
  obtain ⟨a, ha, hai⟩ := hc.loadInteger (hf (.int, lhs) (by simp [operands]))
  obtain ⟨b, hb, hbi⟩ := hc.loadInteger (hf (.int, rhs) (by simp [operands]))
  obtain ⟨v, hv, rfl⟩ := happly a b hai hbi
  obtain ⟨m', hm, hs⟩ := hc.storeInteger (hf (.int, dst) (by simp [operands])) v
  simp only [execute, ha, hb, hv, hm]
  exact ⟨hs, rfl, rfl⟩

/-- A quotient or remainder by zero is not stored. -/
theorem matches_division_by_zero {kind : Arithmetic} {dst lhs rhs : Int16} (hc : c.Shows m)
    (hf : (arithmetic kind dst lhs rhs).OperandsFit m.capacity)
    (hk : kind = .divide ∨ kind = .modulo) (hz : c.integer rhs.toInt = 0) :
    ((arithmetic kind dst lhs rhs).execute m).Matches (c, .fall)
      { instructions := 1, divisionsByZero := 1 } := by
  obtain ⟨a, ha, -⟩ := hc.loadInteger (hf (.int, lhs) (by simp [operands]))
  obtain ⟨b, hb, hbi⟩ := hc.loadInteger (hf (.int, rhs) (by simp [operands]))
  have hzero : b = 0 := Int32.toInt_inj.1 (hbi.symm.trans hz)
  have hnone : kind.apply a b = none := (Arithmetic.apply_eq_none_iff kind a b).2 ⟨hk, hzero⟩
  simp only [execute, ha, hb, hnone]
  exact ⟨hc, rfl, rfl⟩

/-- A quotient or remainder is stored unless the divisor is zero. -/
theorem matches_division {kind : Arithmetic} {dst lhs rhs : Int16} {n : Int} (hc : c.Shows m)
    (hf : (arithmetic kind dst lhs rhs).OperandsFit m.capacity)
    (hk : kind = .divide ∨ kind = .modulo)
    (happly : ∀ a b : Int32, c.integer lhs.toInt = a.toInt → c.integer rhs.toInt = b.toInt →
      b ≠ 0 → ∃ v, kind.apply a b = some v ∧ v.toInt = n) :
    ((arithmetic kind dst lhs rhs).execute m).Matches
      (if c.integer rhs.toInt = 0 then c else c.setInteger dst.toInt n, .fall)
      { instructions := 1, divisionsByZero := if c.integer rhs.toInt = 0 then 1 else 0 } := by
  by_cases hz : c.integer rhs.toInt = 0
  · rw [if_pos hz, if_pos hz]
    exact matches_division_by_zero hc hf hk hz
  · rw [if_neg hz, if_neg hz]
    refine matches_arithmetic hc hf fun a b ha hb => happly a b ha hb ?_
    rintro rfl
    exact hz hb

theorem matches_condition {condition : Bool} {target : Int16} (hc : c.Shows m) :
    (Effect.ofCondition m target (some condition)).Matches
      (c, unlessHolds condition target.toInt) { instructions := 1 } := by
  cases condition <;> exact ⟨hc, rfl, rfl⟩

theorem matches_unlessBit {bit target : Int16} {expected : Bool} (hc : c.Shows m)
    (hf : (unlessBit bit expected target).OperandsFit m.capacity) :
    ((unlessBit bit expected target).execute m).Matches
      (c, unlessHolds (c.bit bit.toInt = expected) target.toInt) { instructions := 1 } := by
  have hv := hc.loadBit (hf (.bit, bit) (by simp [operands]))
  rw [execute, hv]
  exact matches_condition hc

theorem matches_unlessLiteral {comparison : Comparison} {lhs target : Int16} {literal : Int32}
    {condition : Bool} (hc : c.Shows m)
    (hf : (unlessLiteral comparison lhs literal target).OperandsFit m.capacity)
    (hholds : ∀ a : Int32, c.integer lhs.toInt = a.toInt →
      comparison.holds a literal = condition) :
    ((unlessLiteral comparison lhs literal target).execute m).Matches
      (c, unlessHolds condition target.toInt) { instructions := 1 } := by
  obtain ⟨a, ha, hai⟩ := hc.loadInteger (hf (.int, lhs) (by simp [operands]))
  rw [execute, ha, ← hholds a hai]
  exact matches_condition hc

theorem matches_unlessCompare {comparison : Comparison} {lhs rhs target : Int16}
    {condition : Bool} (hc : c.Shows m)
    (hf : (unlessCompare comparison lhs rhs target).OperandsFit m.capacity)
    (hholds : ∀ a b : Int32, c.integer lhs.toInt = a.toInt → c.integer rhs.toInt = b.toInt →
      comparison.holds a b = condition) :
    ((unlessCompare comparison lhs rhs target).execute m).Matches
      (c, unlessHolds condition target.toInt) { instructions := 1 } := by
  obtain ⟨a, ha, hai⟩ := hc.loadInteger (hf (.int, lhs) (by simp [operands]))
  obtain ⟨b, hb, hbi⟩ := hc.loadInteger (hf (.int, rhs) (by simp [operands]))
  rw [execute, ha, hb, ← hholds a b hai hbi]
  exact matches_condition hc

end Operation

namespace Table

variable {i : Instruction} {c : Cells}

theorem not_mem_known {code : Int16} (h : Opcode.ofCode? code = none) : code.toInt ∉ known := by
  unfold Opcode.ofCode? at h
  generalize code.toInt = n at h
  split at h <;> simp_all [known]

theorem perform_of_not_mem_known (h : i.code.toInt ∉ known) : perform i c = (c, .fall) := by
  unfold perform
  generalize i.code.toInt = n at h
  split <;> simp_all [known]

theorem count_of_not_mem_known (h : i.code.toInt ∉ known) :
    count i c = { instructions := 1, unsupportedOperations := 1 } := by
  have hdivision : ¬ (i.code.toInt = 10 ∨ i.code.toInt = 19) := by
    rintro (hc | hc) <;> exact h (by simp [hc, known])
  rw [count, if_neg h, if_neg fun hz => hdivision hz.1]

theorem count_of_division (h : i.code.toInt = 10 ∨ i.code.toInt = 19) :
    count i c =
      { instructions := 1, divisionsByZero := if c.integer i.third.toInt = 0 then 1 else 0 } := by
  have hk : i.code.toInt ∈ known := by
    rcases h with h | h <;> simp [h, known]
  simp [count, h, hk]

end Table

/-- Decoding and executing a record does what the table says. -/
theorem Instruction.matches_perform {i : Instruction} {c : Cells} {m : Memory} (hc : c.Shows m)
    (hf : i.decode.OperandsFit m.capacity) :
    (i.decode.execute m).Matches (perform i c) (count i c) := by
  cases ho : Opcode.ofCode? i.code with
  | none =>
    have hk := not_mem_known ho
    have hd : i.decode = .unsupported i.code := by rw [decode, ho]
    rw [hd, perform_of_not_mem_known hk, count_of_not_mem_known hk]
    exact ⟨hc, rfl, rfl⟩
  | some o =>
    have hcode := Opcode.code_of_ofCode? ho
    obtain ⟨code, first, second, third, literal⟩ := i
    obtain rfl : o.code = code := hcode
    cases o with
    | setBit => exact Operation.matches_writeBit hc hf
    | clearBit => exact Operation.matches_writeBit hc hf
    | copyBit => exact Operation.matches_copyBit hc hf
    | setLiteral => exact Operation.matches_setLiteral hc hf
    | setVariable => exact Operation.matches_setVariable hc hf
    | increment => exact Operation.matches_count hc hf
    | decrement => exact Operation.matches_count hc hf
    | add =>
      refine Operation.matches_arithmetic hc hf fun a b ha hb => ⟨a + b, rfl, ?_⟩
      rw [ha, hb]
      exact Int32.toInt_add a b
    | subtract =>
      refine Operation.matches_arithmetic hc hf fun a b ha hb => ⟨a - b, rfl, ?_⟩
      rw [ha, hb]
      exact Int32.toInt_sub a b
    | multiply =>
      refine Operation.matches_arithmetic hc hf fun a b ha hb => ⟨a * b, rfl, ?_⟩
      rw [ha, hb]
      exact Int32.toInt_mul a b
    | divide =>
      rw [count_of_division (.inl rfl)]
      refine Operation.matches_division hc hf (.inl rfl) fun a b ha hb hne => ⟨a / b, if_neg hne, ?_⟩
      rw [ha, hb]
      exact Int32.toInt_div a b
    | modulo =>
      rw [count_of_division (.inr rfl)]
      refine Operation.matches_division hc hf (.inr rfl) fun a b ha hb hne => ⟨a % b, if_neg hne, ?_⟩
      rw [ha, hb, ← Int32.toInt_mod]
      exact (Int32.toInt_bmod (a % b)).symm
    | ifBitSet => exact Operation.matches_unlessBit hc hf
    | ifBitClear => exact Operation.matches_unlessBit hc hf
    | ifLessLiteral =>
      refine Operation.matches_unlessLiteral hc hf fun a ha => ?_
      rw [ha]
      exact decide_eq_decide.2 Int32.lt_iff_toInt_lt
    | ifEqual =>
      refine Operation.matches_unlessCompare hc hf fun a b ha hb => ?_
      rw [ha, hb]
      exact decide_eq_decide.2 Int32.toInt_inj.symm
    | ifGreater =>
      refine Operation.matches_unlessCompare hc hf fun a b ha hb => ?_
      rw [ha, hb]
      exact decide_eq_decide.2 Int32.lt_iff_toInt_lt
    | ifGreaterOrEqual =>
      refine Operation.matches_unlessCompare hc hf fun a b ha hb => ?_
      rw [ha, hb]
      exact decide_eq_decide.2 Int32.le_iff_toInt_le
    | ifLessOrEqual =>
      refine Operation.matches_unlessCompare hc hf fun a b ha hb => ?_
      rw [ha, hb]
      exact decide_eq_decide.2 Int32.le_iff_toInt_le
    | ifNotEqual =>
      refine Operation.matches_unlessCompare hc hf fun a b ha hb => ?_
      rw [ha, hb]
      exact decide_eq_decide.2 (not_congr Int32.toInt_inj.symm)
    | jump => exact ⟨hc, rfl, rfl⟩
    | forwardAllocated => exact ⟨hc, rfl, rfl⟩
    | knownAllocated => exact ⟨hc, rfl, rfl⟩
    | forwardResolved => exact ⟨hc, rfl, rfl⟩
    | endOfProgram => exact ⟨hc, rfl, rfl⟩

namespace Table

def Ending.outcome : Ending → Outcome
  | .finished => .completed
  | .pastEnd => .ranPastEnd

/-- What the end of a run adds to the counters. -/
def Ending.counted : Ending → Statistics
  | .finished => {}
  | .pastEnd => { ranPastEnd := 1 }

section Run

variable {records : List Instruction} {fuel : Nat} {p : Point} {i : Instruction} {c : Cells}

theorem run_of_none (hi : p.pc.toNat?.bind (records[·]?) = none) :
    run records (fuel + 1) p = some (.pastEnd, p) := by
  rw [run, hi]

theorem run_of_fall (hi : p.pc.toNat?.bind (records[·]?) = some i)
    (h : (perform i p.cells).2 = .fall) :
    run records (fuel + 1) p = run records fuel
      ⟨(perform i p.cells).1, p.pc + 1, p.counted + count i p.cells⟩ := by
  simp only [run, hi, h]

theorem run_of_goto {target : Int} (hi : p.pc.toNat?.bind (records[·]?) = some i)
    (h : (perform i p.cells).2 = .goto target) :
    run records (fuel + 1) p = run records fuel
      ⟨(perform i p.cells).1, target, p.counted + count i p.cells + { jumpsTaken := 1 }⟩ := by
  simp only [run, hi, h]

theorem run_of_finish (hi : p.pc.toNat?.bind (records[·]?) = some i)
    (h : (perform i p.cells).2 = .finish) :
    run records (fuel + 1) p =
      some (.finished, ⟨(perform i p.cells).1, p.pc, p.counted + count i p.cells⟩) := by
  simp only [run, hi, h]

end Run

/-- A point of a cycle and a point of the table: the same memory, the same address, and the same
counts since the counters stood at `before`. -/
structure Follows (before : Statistics) (s : Scan) (p : Point) : Prop where
  shows_memory : p.cells.Shows s.machine.memory
  pc_eq : p.pc = s.pc
  statistics_eq : s.machine.statistics = before + p.counted

/-- The end of a cycle and the end of a run of the table. -/
structure EndsLike (before : Statistics) (e : CycleEnd) (r : Ending × Point) : Prop where
  outcome_eq : e.outcome = r.1.outcome
  shows_memory : r.2.cells.Shows e.machine.memory
  statistics_eq : e.machine.statistics = before + r.2.counted + r.1.counted

variable {before : Statistics} {s : Scan} {p : Point} {i : Instruction}

theorem Follows.record_eq (h : Follows before s p) :
    p.pc.toNat?.bind (s.machine.program.instructions.toList[·]?) =
      s.machine.program.fetch? s.pc := by
  rw [h.pc_eq, Program.fetch?]
  exact Array.getElem?_toList

theorem Follows.matches_effect (h : Follows before s p)
    (ha : s.machine.program.AcceptedWithin s.machine.memory.capacity)
    (hi : s.machine.program.fetch? s.pc = some i) :
    (s.effect i).Matches (perform i p.cells) (count i p.cells) :=
  Instruction.matches_perform h.shows_memory (ha.operandsFit hi)

theorem Follows.statistics_noted (h : Follows before s p)
    (hm : (s.effect i).Matches (perform i p.cells) (count i p.cells)) :
    (s.noted i).value.statistics = before + (p.counted + count i p.cells) := by
  rw [Scan.statistics_noted, h.statistics_eq, hm.gain_eq, Statistics.add_assoc]

theorem Follows.shows_noted
    (hm : (s.effect i).Matches (perform i p.cells) (count i p.cells)) :
    (perform i p.cells).1.Shows (s.noted i).value.memory := by
  rw [Scan.memory_noted]
  exact hm.shows_memory

section Rel

variable {α β : Type} {R : α → β → Prop}

theorem exists_right_of_rel {a : α} {y : Option β} (h : Option.Rel R (some a) y) :
    ∃ b, y = some b ∧ R a b := by
  cases h with
  | some h => exact ⟨_, rfl, h⟩

theorem exists_left_of_rel {x : Option α} {b : β} (h : Option.Rel R x (some b)) :
    ∃ a, x = some a ∧ R a b := by
  cases h with
  | some h => exact ⟨_, rfl, h⟩

end Rel

/-- A cycle without a limit and a run of the table are over within the same number of steps, if they
are over at all, and end alike. -/
theorem rel_run {records : List Instruction} {budget : Nat} {log : Array Event}
    (h : Follows before s p) (hr : s.machine.program.instructions.toList = records)
    (ha : s.machine.program.AcceptedWithin s.machine.memory.capacity)
    (hu : s.machine.stepLimit = none) :
    Option.Rel (EndsLike before) (s.run budget log) (run records budget p) := by
  induction budget generalizing s p log with
  | zero => exact .none
  | succ budget ih =>
    have hrecord := h.record_eq
    rw [hr] at hrecord
    cases hi : s.machine.program.fetch? s.pc with
    | none =>
      rw [hi] at hrecord
      rw [Scan.run_succ_of_ended (Scan.Moves.pastEnd hi).step_eq, run_of_none hrecord]
      refine .some ⟨rfl, h.shows_memory, ?_⟩
      exact congrArg (· + ({ ranPastEnd := 1 } : Statistics)) h.statistics_eq
    | some i =>
      rw [hi] at hrecord
      have hmatch := h.matches_effect ha hi
      have hshows := Follows.shows_noted hmatch
      have hcounted := h.statistics_noted hmatch
      have hcontrol := hmatch.control_eq
      have hl : s.machine.reachedLimit? s.steps = none := by rw [Machine.reachedLimit?, hu]; rfl
      cases hf : (s.effect i).flow with
      | next =>
        rw [hf] at hcontrol
        have hm := Scan.Moves.next hi hl hf
        rw [Scan.run_succ_of_running hm.step_eq, run_of_fall hrecord hcontrol]
        have hpc : p.pc + 1 = ((s.pc + 1 : Nat) : Int) := by rw [h.pc_eq]; rfl
        exact ih ⟨hshows, hpc, hcounted⟩ (by rw [← hr, Scan.program_noted]) (hm.acceptedWithin ha)
          (hm.stepLimit_eq.trans hu)
      | finish =>
        rw [hf] at hcontrol
        have hm := Scan.Moves.finish hi hl hf
        rw [Scan.run_succ_of_ended hm.step_eq, run_of_finish hrecord hcontrol]
        exact .some ⟨rfl, hshows, hcounted⟩
      | jump target =>
        rw [hf] at hcontrol
        have hfits := ha.accepted.jumpFits hi _ (Operation.jumpTarget?_of_flow hf)
        obtain ⟨next, hnext, hlt⟩ := (operandFits_iff _ _).1 hfits
        have hm := Scan.Moves.jump hi hl hf hnext hlt
        rw [Scan.run_succ_of_running hm.step_eq, run_of_goto hrecord hcontrol]
        have hjumped : (s.noted i).value.countJump.statistics =
            before + (p.counted + count i p.cells + { jumpsTaken := 1 }) := by
          rw [← Statistics.add_assoc, ← hcounted]
          rfl
        exact ih ⟨hshows, toInt_of_operandAddress? hnext, hjumped⟩
          (by rw [← hr, hm.program_eq.symm]; rfl) (hm.acceptedWithin ha)
          (hm.stepLimit_eq.trans hu)

end Table

namespace Machine

/-- A cycle of an accepted program without a step limit, in a memory with room for the program, ends
exactly if the table's run over the records from address 0 is over, whatever the table holds outside
memory. The outcome is then the ending of the run, memory keeps its size and shows the cells of the
run, and the counters have grown by what the run has counted and by one cycle. -/
theorem cycle_follows_table {instructions : List Instruction} {g : Geometry} {m : Machine} {c : Cells}
    (hv : Program.validate instructions g = .ok m.program)
    (hg : ∀ b, g.capacity b ≤ m.memory.capacity b) (hu : m.stepLimit = none) (hc : c.Shows m.memory) :
    ((∃ budget e, m.cycle budget = some e) ↔
      ∃ fuel r, Table.run instructions fuel { cells := c } = some r) ∧
    ∀ budget e fuel r, m.cycle budget = some e →
      Table.run instructions fuel { cells := c } = some r →
        e.outcome = r.1.outcome ∧ r.2.cells.Shows e.machine.memory ∧
          (∀ b, e.machine.memory.capacity b = m.memory.capacity b) ∧
          e.machine.statistics = m.statistics + { cycles := 1 } + r.2.counted + r.1.counted := by
  have hrecords : m.program.instructions.toList = instructions := Program.instructions_of_validate hv
  have hfollows : Follows (m.statistics + { cycles := 1 }) m.start { cells := c } := ⟨hc, rfl, rfl⟩
  have hrel (budget : Nat) : Option.Rel (EndsLike (m.statistics + { cycles := 1 }))
      (m.cycle budget) (Table.run instructions budget { cells := c }) :=
    rel_run hfollows hrecords ⟨g, instructions, hv, hg⟩ hu
  refine ⟨⟨?_, ?_⟩, ?_⟩
  · rintro ⟨budget, e, he⟩
    obtain ⟨r, hr, -⟩ := exists_right_of_rel (he ▸ hrel budget)
    exact ⟨budget, r, hr⟩
  · rintro ⟨fuel, r, hr⟩
    obtain ⟨e, he, -⟩ := exists_left_of_rel (hr ▸ hrel fuel)
    exact ⟨fuel, e, he⟩
  · intro budget e fuel r he hr
    obtain ⟨e', he', hends⟩ := exists_left_of_rel (hr ▸ hrel fuel)
    obtain rfl := cycle_unique he he'
    exact ⟨hends.outcome_eq, hends.shows_memory, fun b => capacity_eq_of_cycle he b,
      hends.statistics_eq⟩

/-- An increment that wraps around, and a conditional that falls through because of it. -/
theorem cycle_follows_table_wrap :
    let records : List Instruction :=
      [.setLiteral 0 2147483647, .increment 0, .ifLessLiteral 0 0 4, .setBit 1, .endOfProgram]
    let m : Machine := { program := ⟨records.toArray⟩, memory := .zero 2 1 }
    ∃ e r, m.cycle 5 = some e ∧ Table.run records 5 { cells := .ofMemory m.memory } = some r ∧
      e.outcome = r.1.outcome ∧ r.2.cells.Shows e.machine.memory ∧
      r.2.cells.integer 0 = -2147483648 ∧
      e.machine.statistics = { cycles := 1, instructions := 5 } := by
  intro records m
  have hv : Program.validate records ⟨2, 1, 5⟩ = .ok m.program := by decide
  have hg : ∀ b, Geometry.capacity ⟨2, 1, 5⟩ b ≤ m.memory.capacity b := by
    intro b
    cases b <;> decide
  have hcycle : (m.cycle 5).isSome = true := by decide
  have hrun : (Table.run records 5 { cells := .ofMemory m.memory }).map (fun r =>
      (r.1, r.2.cells.integer 0, r.2.counted)) =
        some (.finished, -2147483648, { instructions := 5 }) := by decide
  obtain ⟨e, he⟩ := Option.isSome_iff_exists.1 hcycle
  obtain ⟨r, hr, hend⟩ := Option.map_eq_some_iff.1 hrun
  obtain ⟨hfinished, hinteger, hcounted⟩ :
      r.1 = .finished ∧ r.2.cells.integer 0 = -2147483648 ∧ r.2.counted = { instructions := 5 } := by
    simpa using hend
  obtain ⟨houtcome, hshows, -, hstatistics⟩ :=
    (cycle_follows_table hv hg rfl (Cells.shows_ofMemory m.memory)).2 5 e 5 r he hr
  rw [hcounted, hfinished] at hstatistics
  exact ⟨e, r, he, hr, houtcome, hshows, hinteger, hstatistics⟩

end Machine

end LadderMachine
