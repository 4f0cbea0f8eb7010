import LadderMachine.Execution
import LadderMachine.Proofs.Program.WellFormed

/-!
# What one operation can do

The accesses through raw operands succeed exactly for operands that fit their bank. From this the
facts about `Operation.execute` follow that hardly depend on the values in memory: banks keep their
sizes, control goes on as the operation says, and an operation misses memory exactly if one of its
operands does not fit, a division by zero apart.
-/

namespace LadderMachine

theorem toInt_of_operandAddress? {operand : Int16} {n : Nat} (h : operandAddress? operand = some n) :
    operand.toInt = n :=
  Int.mem_toNat?.1 h

/-- A value that is read and then stored is stored if both accesses succeed. -/
theorem exists_bind_iff {α β : Type} {read : Option α} {store : α → Option β} {p q : Prop}
    (hr : (∃ v, read = some v) ↔ p) (hs : ∀ v, (∃ r, store v = some r) ↔ q) :
    (∃ r, read.bind store = some r) ↔ p ∧ q := by
  cases read with
  | none => simp [← hr]
  | some v => simp [← hr, hs]

namespace Memory

variable {m m' : Memory} {operand : Int16}

theorem exists_loadBit_iff :
    (∃ v, m.loadBit operand = some v) ↔ operandFits operand (m.capacity .bit) = true := by
  rw [operandFits_iff, loadBit]
  cases operandAddress? operand with
  | none => simp
  | some n => simp [← Option.isSome_iff_exists, bit?, capacity]

theorem exists_loadInteger_iff :
    (∃ v, m.loadInteger operand = some v) ↔ operandFits operand (m.capacity .int) = true := by
  rw [operandFits_iff, loadInteger]
  cases operandAddress? operand with
  | none => simp
  | some n => simp [← Option.isSome_iff_exists, integer?, capacity]

theorem exists_storeBit_iff (value : Bool) :
    (∃ m', m.storeBit operand value = some m') ↔ operandFits operand (m.capacity .bit) = true := by
  rw [operandFits_iff, storeBit]
  cases operandAddress? operand with
  | none => simp
  | some n => simp [← Option.isSome_iff_exists, setBit?_isSome_iff, capacity]

theorem exists_storeInteger_iff (value : Int32) :
    (∃ m', m.storeInteger operand value = some m') ↔
      operandFits operand (m.capacity .int) = true := by
  rw [operandFits_iff, storeInteger]
  cases operandAddress? operand with
  | none => simp
  | some n => simp [← Option.isSome_iff_exists, setInteger?_isSome_iff, capacity]

theorem capacity_storeBit {value : Bool} (h : m.storeBit operand value = some m') (b : Bank) :
    m'.capacity b = m.capacity b := by
  obtain ⟨n, _, hn⟩ := Option.bind_eq_some_iff.1 h
  exact capacity_setBit? hn b

theorem capacity_storeInteger {value : Int32} (h : m.storeInteger operand value = some m')
    (b : Bank) : m'.capacity b = m.capacity b := by
  obtain ⟨n, _, hn⟩ := Option.bind_eq_some_iff.1 h
  exact capacity_setInteger? hn b

end Memory

namespace Effect

variable {m : Memory} {stored : Option Memory} {condition : Option Bool} {target t : Int16}

@[simp] theorem flow_ofStore : (ofStore m stored).flow = .next := by cases stored <;> rfl

theorem capacity_ofStore {b : Bank} (h : ∀ m', stored = some m' → m'.capacity b = m.capacity b) :
    (ofStore m stored).memory.capacity b = m.capacity b := by
  cases stored with
  | none => rfl
  | some m' => exact h m' rfl

theorem anomaly_ofStore_iff :
    (ofStore m stored).anomaly = some .operandOutside ↔ ¬ ∃ m', stored = some m' := by
  cases stored <;> simp [ofStore]

@[simp] theorem memory_ofCondition : (ofCondition m target condition).memory = m := by
  rcases condition with _ | _ | _ <;> rfl

@[simp] theorem anomaly_ofCondition_some {b : Bool} :
    (ofCondition m target (some b)).anomaly = none := by
  cases b <;> rfl

theorem anomaly_ofCondition_iff :
    (ofCondition m target condition).anomaly = some .operandOutside ↔
      ¬ ∃ b, condition = some b := by
  rcases condition with _ | _ | _ <;> simp [ofCondition]

theorem flow_ofCondition_ne_finish : (ofCondition m target condition).flow ≠ .finish := by
  rcases condition with _ | _ | _ <;> simp [ofCondition]

theorem eq_of_flow_ofCondition (h : (ofCondition m target condition).flow = .jump t) :
    target = t := by
  rcases condition with _ | _ | _ <;> simp_all [ofCondition]

end Effect

namespace Operation

variable {op : Operation} {m : Memory}

theorem flow_execute_arithmetic (kind : Arithmetic) (dst lhs rhs : Int16) (m : Memory) :
    ((arithmetic kind dst lhs rhs).execute m).flow = .next := by
  simp only [execute]
  split
  · split <;> simp
  · rfl

/-- An operation only writes cells, so both banks keep their sizes. -/
theorem capacity_execute (op : Operation) (m : Memory) (b : Bank) :
    (op.execute m).memory.capacity b = m.capacity b := by
  cases op with
  | writeBit => exact Effect.capacity_ofStore fun _ h => Memory.capacity_storeBit h b
  | setLiteral => exact Effect.capacity_ofStore fun _ h => Memory.capacity_storeInteger h b
  | copyBit =>
    refine Effect.capacity_ofStore fun m' h => ?_
    obtain ⟨v, _, hv⟩ := Option.bind_eq_some_iff.1 h
    exact Memory.capacity_storeBit hv b
  | setVariable | count =>
    refine Effect.capacity_ofStore fun m' h => ?_
    obtain ⟨v, _, hv⟩ := Option.bind_eq_some_iff.1 h
    exact Memory.capacity_storeInteger hv b
  | arithmetic =>
    simp only [execute]
    split
    · split
      · exact Effect.capacity_ofStore fun _ h => Memory.capacity_storeInteger h b
      · rfl
    · rfl
  | unlessBit | unlessLiteral | unlessCompare => simp [execute]
  | jump | endOfProgram | marker | unsupported => rfl

/-- Control leaves the next address only for the target that the operation carries. -/
theorem jumpTarget?_of_flow {t : Int16} (h : (op.execute m).flow = .jump t) :
    op.jumpTarget? = some t := by
  cases op with
  | writeBit | copyBit | setLiteral | setVariable | count => simp [execute] at h
  | arithmetic => rw [flow_execute_arithmetic] at h; cases h
  | unlessBit | unlessLiteral | unlessCompare =>
    rw [← Effect.eq_of_flow_ofCondition h]
    rfl
  | jump => cases h; rfl
  | endOfProgram | marker | unsupported => cases h

/-- The end marker, and nothing else, finishes a cycle. -/
theorem flow_eq_finish_iff : (op.execute m).flow = .finish ↔ op = .endOfProgram := by
  cases op with
  | writeBit | copyBit | setLiteral | setVariable | count => simp [execute]
  | arithmetic => simp [flow_execute_arithmetic]
  | unlessBit | unlessLiteral | unlessCompare => simp [execute, Effect.flow_ofCondition_ne_finish]
  | jump | endOfProgram | marker | unsupported => simp [execute]

/-- A quotient or remainder whose sources are both there, with zero in the cell of the divisor. -/
def DividesByZero (op : Operation) (m : Memory) : Prop :=
  ∃ kind dst lhs rhs, op = arithmetic kind dst lhs rhs ∧
    (kind = .divide ∨ kind = .modulo) ∧ operandFits lhs (m.capacity .int) = true ∧
    operandFits rhs (m.capacity .int) = true ∧ m.loadInteger rhs = some 0

theorem exists_compare?_iff {comparison : Comparison} {lhs rhs : Option Int32} :
    (∃ b, compare? comparison lhs rhs = some b) ↔ (∃ a, lhs = some a) ∧ ∃ b, rhs = some b := by
  cases lhs <;> cases rhs <;> simp [compare?]

theorem anomaly_arithmetic_iff {kind : Arithmetic} {dst lhs rhs : Int16} :
    ((arithmetic kind dst lhs rhs).execute m).anomaly = some .operandOutside ↔
      ¬ (arithmetic kind dst lhs rhs).OperandsFit m.capacity ∧
        ¬ (arithmetic kind dst lhs rhs).DividesByZero m := by
  have hfit : (arithmetic kind dst lhs rhs).OperandsFit m.capacity ↔
      operandFits dst (m.capacity .int) = true ∧ operandFits lhs (m.capacity .int) = true ∧
        operandFits rhs (m.capacity .int) = true := by
    simp [OperandsFit, operands]
  have hzero : (arithmetic kind dst lhs rhs).DividesByZero m ↔
      (kind = .divide ∨ kind = .modulo) ∧ operandFits lhs (m.capacity .int) = true ∧
        operandFits rhs (m.capacity .int) = true ∧ m.loadInteger rhs = some 0 := by
    simp [DividesByZero]
  rw [hfit, hzero, ← @Memory.exists_loadInteger_iff m lhs,
    ← @Memory.exists_loadInteger_iff m rhs, execute]
  cases m.loadInteger lhs with
  | none => simp
  | some a =>
    cases m.loadInteger rhs with
    | none => simp
    | some b =>
      cases hv : kind.apply a b with
      | none =>
        obtain ⟨hkind, rfl⟩ := (Arithmetic.apply_eq_none_iff kind a b).1 hv
        simp [hv, hkind]
      | some v =>
        have hne : ¬ ((kind = .divide ∨ kind = .modulo) ∧ b = 0) := by
          rw [← Arithmetic.apply_eq_none_iff kind a b, hv]
          exact Option.some_ne_none v
        have hs := @Memory.exists_storeInteger_iff m dst v
        simp only [hv, Effect.anomaly_ofStore_iff, hs]
        simp_all

/-- An operation misses memory exactly if one of its operands does not fit, unless it is a division
by zero, which never comes to its destination. -/
theorem anomaly_eq_operandOutside_iff :
    (op.execute m).anomaly = some .operandOutside ↔
      ¬ op.OperandsFit m.capacity ∧ ¬ op.DividesByZero m := by
  cases op with
  | arithmetic => exact anomaly_arithmetic_iff
  | writeBit | setLiteral =>
    rw [execute, Effect.anomaly_ofStore_iff]
    simp [OperandsFit, operands, DividesByZero, Memory.exists_storeBit_iff,
      Memory.exists_storeInteger_iff]
  | copyBit dst src =>
    rw [execute, Effect.anomaly_ofStore_iff,
      exists_bind_iff Memory.exists_loadBit_iff Memory.exists_storeBit_iff]
    simp [OperandsFit, operands, DividesByZero, and_comm]
  | setVariable dst src =>
    rw [execute, Effect.anomaly_ofStore_iff,
      exists_bind_iff Memory.exists_loadInteger_iff Memory.exists_storeInteger_iff]
    simp [OperandsFit, operands, DividesByZero, and_comm]
  | count dst direction =>
    rw [execute, Effect.anomaly_ofStore_iff, exists_bind_iff Memory.exists_loadInteger_iff
      fun v => Memory.exists_storeInteger_iff (v + direction.delta)]
    simp [OperandsFit, operands, DividesByZero]
  | unlessBit bit expected target =>
    rw [execute, Effect.anomaly_ofCondition_iff, ← Option.isSome_iff_exists, Option.isSome_map,
      Option.isSome_iff_exists, Memory.exists_loadBit_iff]
    simp [OperandsFit, operands, DividesByZero]
  | unlessLiteral comparison lhs literal target =>
    rw [execute, Effect.anomaly_ofCondition_iff, exists_compare?_iff]
    simp [OperandsFit, operands, DividesByZero, ← Memory.exists_loadInteger_iff]
  | unlessCompare comparison lhs rhs target =>
    rw [execute, Effect.anomaly_ofCondition_iff, exists_compare?_iff]
    simp [OperandsFit, operands, DividesByZero, ← Memory.exists_loadInteger_iff]
  | jump | endOfProgram | marker | unsupported => simp [execute, OperandsFit, operands]

theorem anomaly_ne_operandOutside (h : op.OperandsFit m.capacity) :
    (op.execute m).anomaly ≠ some .operandOutside :=
  fun hm => (anomaly_eq_operandOutside_iff.1 hm).1 h

end Operation

end LadderMachine
