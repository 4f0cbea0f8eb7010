import LadderMachine.Proofs.Machine.Counters

/-!
# Operand faults

The operands of an operation are exactly the cells that executing it can miss: if one of them does not
fit a geometry, then some memory of that geometry shows it, for a division one without zeros. An
instruction that misses a cell has no effect but that it is counted.
-/

namespace LadderMachine

def Memory.withoutZeros (g : Geometry) : Memory := ⟨.replicate g.bits false, .replicate g.integers 1⟩

theorem Memory.capacity_withoutZeros (g : Geometry) (b : Bank) :
    (withoutZeros g).capacity b = g.capacity b := by
  cases b <;> simp [withoutZeros, capacity, Geometry.capacity]

theorem Memory.loadInteger_withoutZeros (g : Geometry) (operand : Int16) :
    (withoutZeros g).loadInteger operand ≠ some 0 := by
  intro h
  obtain ⟨address, -, hv⟩ := Option.bind_eq_some_iff.1 h
  rw [integer?, withoutZeros, Array.getElem?_replicate] at hv
  split at hv
  · exact absurd hv (by decide)
  · exact absurd hv (by simp)

namespace Effect

variable {m : Memory} {stored : Option Memory} {condition : Option Bool} {target : Int16}

theorem ofStore_eq_of_anomaly (h : (ofStore m stored).anomaly = some .operandOutside) :
    ofStore m stored = { memory := m, anomaly := some .operandOutside } := by
  cases stored with
  | none => rfl
  | some m' => exact absurd h (by simp [ofStore])

theorem ofCondition_eq_of_anomaly
    (h : (ofCondition m target condition).anomaly = some .operandOutside) :
    ofCondition m target condition = { memory := m, anomaly := some .operandOutside } := by
  rcases condition with _ | _ | _
  · rfl
  · exact absurd h (by simp [ofCondition])
  · exact absurd h (by simp [ofCondition])

end Effect

namespace Operation

variable {op : Operation} {m : Memory}

theorem not_dividesByZero_withoutZeros (op : Operation) (g : Geometry) :
    ¬ op.DividesByZero (.withoutZeros g) := by
  rintro ⟨_, _, _, rhs, _, _, _, _, hzero⟩
  exact Memory.loadInteger_withoutZeros g rhs hzero

/-- Operands fit a geometry exactly if no memory of that geometry is missed. -/
theorem operandsFit_iff_forall_memory (op : Operation) (g : Geometry) :
    op.OperandsFit g.capacity ↔
      ∀ m : Memory, (∀ b, m.capacity b = g.capacity b) →
        (op.execute m).anomaly ≠ some .operandOutside := by
  constructor
  · intro h m hm
    apply anomaly_ne_operandOutside
    rwa [show m.capacity = g.capacity from funext hm]
  · intro h
    by_contra hn
    have hm := Memory.capacity_withoutZeros g
    apply h (.withoutZeros g) hm
    rw [anomaly_eq_operandOutside_iff, show (Memory.withoutZeros g).capacity = g.capacity from funext hm]
    exact ⟨hn, op.not_dividesByZero_withoutZeros g⟩

theorem execute_eq_of_operandOutside (h : (op.execute m).anomaly = some .operandOutside) :
    op.execute m = { memory := m, anomaly := some .operandOutside } := by
  cases op with
  | writeBit | copyBit | setLiteral | setVariable | count => exact Effect.ofStore_eq_of_anomaly h
  | unlessBit | unlessLiteral | unlessCompare => exact Effect.ofCondition_eq_of_anomaly h
  | jump | endOfProgram | marker | unsupported => exact absurd h (by simp [execute])
  | arithmetic kind dst lhs rhs =>
    simp only [execute] at h ⊢
    split at h
    · split at h
      · exact Effect.ofStore_eq_of_anomaly h
      · exact absurd h (by simp)
    · rfl

end Operation

namespace Scan

variable {s : Scan} {i : Instruction}

theorem perform_of_operandOutside
    (h : (i.decode.execute s.machine.memory).anomaly = some .operandOutside) :
    (s.perform i).value = .running ⟨(s.noted i).value, s.pc + 1, s.steps + 1⟩ ∧
      (s.noted i).value.memory = s.machine.memory ∧
      (s.noted i).value.statistics = { s.machine.statistics with
        instructions := s.machine.statistics.instructions + 1
        addressFaults := s.machine.statistics.addressFaults + 1 } := by
  have he : s.effect i = { memory := s.machine.memory, anomaly := some .operandOutside } :=
    Operation.execute_eq_of_operandOutside h
  refine ⟨?_, ?_, ?_⟩
  · rw [perform_eq, he]
    rfl
  · rw [memory_noted, he]
  · rw [statistics_noted, he]
    rfl

end Scan

/-- The operands fit a geometry exactly if the instruction misses no memory of that geometry, whatever
its contents. A miss leaves both banks as they are, goes on at the next address, and is counted as an
address fault beside the instruction itself. If there is no miss although an operand does not fit, then
the instruction is a division whose sources are there and whose divisor is zero. -/
theorem operand_faults_exact (i : Instruction) :
    (∀ g : Geometry, i.decode.OperandsFit g.capacity ↔
      ∀ m : Memory, (∀ b, m.capacity b = g.capacity b) →
        (i.decode.execute m).anomaly ≠ some .operandOutside) ∧
    (∀ s : Scan, (i.decode.execute s.machine.memory).anomaly = some .operandOutside →
      ∃ m, (s.perform i).value = .running ⟨m, s.pc + 1, s.steps + 1⟩ ∧
        m.memory = s.machine.memory ∧
        m.statistics = { s.machine.statistics with
          instructions := s.machine.statistics.instructions + 1
          addressFaults := s.machine.statistics.addressFaults + 1 }) ∧
    ∀ m : Memory, (i.decode.execute m).anomaly ≠ some .operandOutside →
      ¬ i.decode.OperandsFit m.capacity → i.decode.DividesByZero m := by
  refine ⟨i.decode.operandsFit_iff_forall_memory, ?_, ?_⟩
  · intro s h
    exact ⟨_, Scan.perform_of_operandOutside h⟩
  · intro m h hfit
    by_contra hzero
    exact h (Operation.anomaly_eq_operandOutside_iff.2 ⟨hfit, hzero⟩)

/-- A remainder into a cell that is not there: a zero divisor hides the fault, another one shows it. -/
theorem operand_faults_exact_modulo :
    let i := Instruction.arithmetic Opcode.modulo.code 9 0 1
    let zero : Memory := ⟨#[], #[7, 0]⟩
    let s : Scan := { machine := { program := ⟨#[i]⟩, memory := ⟨#[], #[7, 2]⟩ } }
    i.decode.DividesByZero zero ∧
      ∃ m, (s.perform i).value = .running ⟨m, 1, 1⟩ ∧ m.memory = s.machine.memory ∧
        m.statistics = { instructions := 1, addressFaults := 1 } := by
  intro i zero s
  obtain ⟨-, hmiss, hhidden⟩ := operand_faults_exact i
  have hfit : ¬ i.decode.OperandsFit zero.capacity := fun h => by
    have h9 := h (.int, 9) (by decide)
    exact absurd h9 (by decide)
  exact ⟨hhidden zero (by decide) hfit, hmiss s (by decide)⟩

end LadderMachine
