import LadderMachine.Proofs.Machine.Runs

/-!
# What a program sees and changes

An operation uses the cells that its operands name, and changes at most the cell of its destination.
So a program runs alike from memories that agree on the cells it uses, whatever their sizes and
whatever else they hold, and leaves every cell alone that is no destination of its operations.
-/

namespace LadderMachine

/-- The memories hold the same in the given cells, or both have no such cell. -/
structure Memory.AgreesOn (F : Bank → Nat → Prop) (m n : Memory) : Prop where
  bit?_eq {address : Nat} (h : F .bit address) : n.bit? address = m.bit? address
  integer?_eq {address : Nat} (h : F .int address) : n.integer? address = m.integer? address

namespace Memory.AgreesOn

variable {F : Bank → Nat → Prop} {l m n : Memory} {operand : Int16}

theorem refl (F : Bank → Nat → Prop) (m : Memory) : m.AgreesOn F m where
  bit?_eq _ := rfl
  integer?_eq _ := rfl

theorem trans (h : l.AgreesOn F m) (h' : m.AgreesOn F n) : l.AgreesOn F n where
  bit?_eq hF := (h'.bit?_eq hF).trans (h.bit?_eq hF)
  integer?_eq hF := (h'.integer?_eq hF).trans (h.integer?_eq hF)

theorem loadBit (h : m.AgreesOn F n) (ho : ∀ a, operandAddress? operand = some a → F .bit a) :
    n.loadBit operand = m.loadBit operand := by
  unfold Memory.loadBit
  cases ha : operandAddress? operand with
  | none => rfl
  | some a => exact h.bit?_eq (ho a ha)

theorem loadInteger (h : m.AgreesOn F n)
    (ho : ∀ a, operandAddress? operand = some a → F .int a) :
    n.loadInteger operand = m.loadInteger operand := by
  unfold Memory.loadInteger
  cases ha : operandAddress? operand with
  | none => rfl
  | some a => exact h.integer?_eq (ho a ha)

theorem setBit? (h : m.AgreesOn F n) {a : Nat} (ha : F .bit a) (v : Bool) :
    Option.Rel (AgreesOn F) (m.setBit? a v) (n.setBit? a v) := by
  have hsize : n.bits.size ≤ a ↔ m.bits.size ≤ a := by
    rw [← Array.getElem?_eq_none_iff, ← Array.getElem?_eq_none_iff]
    exact Eq.congr_left (h.bit?_eq ha)
  by_cases hm : m.bits.size ≤ a
  · have hn := hsize.2 hm
    rw [Memory.setBit?, Memory.setBit?, if_neg (Nat.not_lt.2 hm), if_neg (Nat.not_lt.2 hn)]
    exact .none
  · obtain ⟨m', hm'⟩ := Option.isSome_iff_exists.1
      ((m.setBit?_isSome_iff a v).2 (Nat.not_le.1 hm))
    obtain ⟨n', hn'⟩ := Option.isSome_iff_exists.1
      ((n.setBit?_isSome_iff a v).2 (Nat.not_le.1 fun hn => hm (hsize.1 hn)))
    rw [hm', hn']
    refine .some ⟨fun {b} hb => ?_, fun {b} hb => ?_⟩
    · rw [bit?_setBit? hm', bit?_setBit? hn', h.bit?_eq hb]
    · rw [Memory.integer?, Memory.integer?, integers_setBit? hm', integers_setBit? hn']
      exact h.integer?_eq hb

theorem setInteger? (h : m.AgreesOn F n) {a : Nat} (ha : F .int a) (v : Int32) :
    Option.Rel (AgreesOn F) (m.setInteger? a v) (n.setInteger? a v) := by
  have hsize : n.integers.size ≤ a ↔ m.integers.size ≤ a := by
    rw [← Array.getElem?_eq_none_iff, ← Array.getElem?_eq_none_iff]
    exact Eq.congr_left (h.integer?_eq ha)
  by_cases hm : m.integers.size ≤ a
  · have hn := hsize.2 hm
    rw [Memory.setInteger?, Memory.setInteger?, if_neg (Nat.not_lt.2 hm), if_neg (Nat.not_lt.2 hn)]
    exact .none
  · obtain ⟨m', hm'⟩ := Option.isSome_iff_exists.1
      ((m.setInteger?_isSome_iff a v).2 (Nat.not_le.1 hm))
    obtain ⟨n', hn'⟩ := Option.isSome_iff_exists.1
      ((n.setInteger?_isSome_iff a v).2 (Nat.not_le.1 fun hn => hm (hsize.1 hn)))
    rw [hm', hn']
    refine .some ⟨fun {b} hb => ?_, fun {b} hb => ?_⟩
    · rw [Memory.bit?, Memory.bit?, bits_setInteger? hm', bits_setInteger? hn']
      exact h.bit?_eq hb
    · rw [integer?_setInteger? hm', integer?_setInteger? hn', h.integer?_eq hb]

theorem storeBit (h : m.AgreesOn F n) (ho : ∀ a, operandAddress? operand = some a → F .bit a)
    (v : Bool) : Option.Rel (AgreesOn F) (m.storeBit operand v) (n.storeBit operand v) := by
  unfold Memory.storeBit
  cases ha : operandAddress? operand with
  | none => exact .none
  | some a => exact h.setBit? (ho a ha) v

theorem storeInteger (h : m.AgreesOn F n) (ho : ∀ a, operandAddress? operand = some a → F .int a)
    (v : Int32) : Option.Rel (AgreesOn F) (m.storeInteger operand v) (n.storeInteger operand v) := by
  unfold Memory.storeInteger
  cases ha : operandAddress? operand with
  | none => exact .none
  | some a => exact h.setInteger? (ho a ha) v

end Memory.AgreesOn

namespace Memory

variable {G : Bank → Nat → Prop} {m m' : Memory} {operand : Int16}

theorem agreesOn_of_storeBit {v : Bool} (h : m.storeBit operand v = some m')
    (ho : ∀ a, operandAddress? operand = some a → ¬ G .bit a) : m.AgreesOn G m' := by
  obtain ⟨a, ha, hs⟩ := Option.bind_eq_some_iff.1 h
  refine ⟨fun {b} hb => ?_, fun _ => ?_⟩
  · have hne : a ≠ b := fun he => ho a ha (he ▸ hb)
    rw [bit?_setBit? hs, if_neg hne]
  · rw [integer?, integers_setBit? hs, integer?]

theorem agreesOn_of_storeInteger {v : Int32} (h : m.storeInteger operand v = some m')
    (ho : ∀ a, operandAddress? operand = some a → ¬ G .int a) : m.AgreesOn G m' := by
  obtain ⟨a, ha, hs⟩ := Option.bind_eq_some_iff.1 h
  refine ⟨fun _ => ?_, fun {b} hb => ?_⟩
  · rw [bit?, bits_setInteger? hs, bit?]
  · have hne : a ≠ b := fun he => ho a ha (he ▸ hb)
    rw [integer?_setInteger? hs, if_neg hne]

end Memory

/-- Control goes on in the same way, with the same anomaly, and memories are related. -/
structure Effect.Alike (R : Memory → Memory → Prop) (e f : Effect) : Prop where
  flow_eq : f.flow = e.flow
  anomaly_eq : f.anomaly = e.anomaly
  memory : R e.memory f.memory

namespace Effect

variable {R : Memory → Memory → Prop} {m n : Memory} {stored stored' : Option Memory}

theorem alike_ofStore (h : R m n) (hs : Option.Rel R stored stored') :
    (ofStore m stored).Alike R (ofStore n stored') := by
  cases hs with
  | some hs => exact ⟨rfl, rfl, hs⟩
  | none => exact ⟨rfl, rfl, h⟩

theorem alike_ofCondition (h : R m n) (target : Int16) (condition : Option Bool) :
    (ofCondition m target condition).Alike R (ofCondition n target condition) := by
  rcases condition with _ | _ | _ <;> exact ⟨rfl, rfl, h⟩

theorem agreesOn_ofStore {G : Bank → Nat → Prop}
    (h : ∀ m', stored = some m' → m.AgreesOn G m') : m.AgreesOn G (ofStore m stored).memory := by
  cases stored with
  | none => exact .refl G m
  | some m' => exact h m' rfl

end Effect

namespace Operation

variable {op : Operation} {F G : Bank → Nat → Prop} {m n : Memory}

def destination? : Operation → Option (Bank × Int16)
  | writeBit dst _ => some (.bit, dst)
  | copyBit dst _ => some (.bit, dst)
  | setLiteral dst _ => some (.int, dst)
  | setVariable dst _ => some (.int, dst)
  | count dst _ => some (.int, dst)
  | arithmetic _ dst _ _ => some (.int, dst)
  | _ => none

/-- An operand of the operation names the cell. -/
def Uses (op : Operation) (bank : Bank) (address : Nat) : Prop :=
  ∃ o ∈ op.operands, o.1 = bank ∧ operandAddress? o.2 = some address

/-- The destination of the operation is the cell. -/
def Changes (op : Operation) (bank : Bank) (address : Nat) : Prop :=
  ∃ o, op.destination? = some o ∧ o.1 = bank ∧ operandAddress? o.2 = some address

theorem Changes.uses {bank : Bank} {address : Nat} (h : op.Changes bank address) :
    op.Uses bank address := by
  obtain ⟨o, ho, hname⟩ := h
  refine ⟨o, ?_, hname⟩
  cases op <;> cases ho <;> simp [operands]

/-- In memories that agree on what an operation uses it does the same. -/
theorem alike_execute (h : m.AgreesOn F n) (hF : ∀ {b a}, op.Uses b a → F b a) :
    (op.execute m).Alike (Memory.AgreesOn F) (op.execute n) := by
  have hop (b : Bank) (o : Int16) (ho : (b, o) ∈ op.operands) :
      ∀ a, operandAddress? o = some a → F b a := fun _ ha => hF ⟨(b, o), ho, rfl, ha⟩
  cases op with
  | writeBit dst value =>
    exact Effect.alike_ofStore h (h.storeBit (hop .bit dst (by simp [operands])) value)
  | setLiteral dst value =>
    exact Effect.alike_ofStore h (h.storeInteger (hop .int dst (by simp [operands])) value)
  | copyBit dst src =>
    have hd := h.storeBit (hop .bit dst (by simp [operands]))
    rw [execute, execute, h.loadBit (hop .bit src (by simp [operands]))]
    refine Effect.alike_ofStore h ?_
    cases m.loadBit src with
    | none => exact .none
    | some v => exact hd v
  | setVariable dst src =>
    have hd := h.storeInteger (hop .int dst (by simp [operands]))
    rw [execute, execute, h.loadInteger (hop .int src (by simp [operands]))]
    refine Effect.alike_ofStore h ?_
    cases m.loadInteger src with
    | none => exact .none
    | some v => exact hd v
  | count dst direction =>
    have hd := h.storeInteger (hop .int dst (by simp [operands]))
    rw [execute, execute, h.loadInteger (hop .int dst (by simp [operands]))]
    refine Effect.alike_ofStore h ?_
    cases m.loadInteger dst with
    | none => exact .none
    | some v => exact hd (v + direction.delta)
  | arithmetic kind dst lhs rhs =>
    have hd := h.storeInteger (hop .int dst (by simp [operands]))
    simp only [execute, h.loadInteger (hop .int lhs (by simp [operands])),
      h.loadInteger (hop .int rhs (by simp [operands]))]
    split
    · split
      · exact Effect.alike_ofStore h (hd _)
      · exact ⟨rfl, rfl, h⟩
    · exact ⟨rfl, rfl, h⟩
  | unlessBit bit expected target =>
    rw [execute, execute, h.loadBit (hop .bit bit (by simp [operands]))]
    exact Effect.alike_ofCondition h target _
  | unlessLiteral comparison lhs literal target =>
    rw [execute, execute, h.loadInteger (hop .int lhs (by simp [operands]))]
    exact Effect.alike_ofCondition h target _
  | unlessCompare comparison lhs rhs target =>
    rw [execute, execute, h.loadInteger (hop .int lhs (by simp [operands])),
      h.loadInteger (hop .int rhs (by simp [operands]))]
    exact Effect.alike_ofCondition h target _
  | jump | endOfProgram | marker | unsupported => exact ⟨rfl, rfl, h⟩

/-- An operation changes no cell but its destination. -/
theorem agreesOn_execute (m : Memory) (hG : ∀ {b a}, G b a → ¬ op.Changes b a) :
    m.AgreesOn G (op.execute m).memory := by
  have hop (b : Bank) (o : Int16) (ho : op.destination? = some (b, o)) :
      ∀ a, operandAddress? o = some a → ¬ G b a := fun _ ha hb => hG hb ⟨(b, o), ho, rfl, ha⟩
  cases op with
  | writeBit dst =>
    exact Effect.agreesOn_ofStore fun _ hm => Memory.agreesOn_of_storeBit hm (hop .bit dst rfl)
  | setLiteral dst =>
    exact Effect.agreesOn_ofStore fun _ hm => Memory.agreesOn_of_storeInteger hm (hop .int dst rfl)
  | copyBit dst src =>
    refine Effect.agreesOn_ofStore fun m' hm => ?_
    obtain ⟨v, _, hv⟩ := Option.bind_eq_some_iff.1 hm
    exact Memory.agreesOn_of_storeBit hv (hop .bit dst rfl)
  | setVariable dst | count dst =>
    refine Effect.agreesOn_ofStore fun m' hm => ?_
    obtain ⟨v, _, hv⟩ := Option.bind_eq_some_iff.1 hm
    exact Memory.agreesOn_of_storeInteger hv (hop .int dst rfl)
  | arithmetic kind dst lhs rhs =>
    simp only [execute]
    split
    · split
      · exact Effect.agreesOn_ofStore fun _ hm =>
          Memory.agreesOn_of_storeInteger hm (hop .int dst rfl)
      · exact .refl G m
    · exact .refl G m
  | unlessBit | unlessLiteral | unlessCompare =>
    rw [execute, Effect.memory_ofCondition]
    exact .refl G m
  | jump | endOfProgram | marker | unsupported => exact .refl G m

end Operation

namespace Program

def Uses (p : Program) (bank : Bank) (address : Nat) : Prop :=
  ∃ i ∈ p.instructions.toList, i.decode.Uses bank address

def Changes (p : Program) (bank : Bank) (address : Nat) : Prop :=
  ∃ i ∈ p.instructions.toList, i.decode.Changes bank address

theorem respects_agreesOn (p : Program) : p.Respects (Memory.AgreesOn p.Uses) := by
  have halike {pc : Nat} {i : Instruction} (hi : p.fetch? pc = some i) {m n : Memory}
      (h : m.AgreesOn p.Uses n) :
      (i.decode.execute m).Alike (Memory.AgreesOn p.Uses) (i.decode.execute n) :=
    Operation.alike_execute h fun hu => ⟨i, mem_of_fetch? hi, hu⟩
  constructor
  · intro _ _ hi _ _ h
    exact (halike hi h).flow_eq
  · intro _ _ hi _ _ h
    exact (halike hi h).anomaly_eq
  · intro _ _ hi _ _ h
    exact (halike hi h).memory

end Program

namespace Scan

variable {s t : Scan} {p : Progress} {events : List Event}

/-- What a move does to memory, an instruction of the program does, if anything. -/
theorem Moves.memory_eq (h : s.Moves p events) : p.machine.memory = s.machine.memory ∨
    ∃ i ∈ s.machine.program.instructions.toList,
      p.machine.memory = (i.decode.execute s.machine.memory).memory := by
  cases h with
  | pastEnd | limit => exact .inl rfl
  | next hi | jump hi | finish hi | astray hi =>
    exact .inr ⟨_, Program.mem_of_fetch? hi, memory_noted⟩

theorem Moves.agreesOn (h : s.Moves p events) :
    s.machine.memory.AgreesOn (fun b a => ¬ s.machine.program.Changes b a) p.machine.memory := by
  rcases h.memory_eq with hm | ⟨i, hi, hm⟩
  · rw [hm]
    exact .refl _ _
  · rw [hm]
    exact Operation.agreesOn_execute _ fun hn hc => hn ⟨i, hi, hc⟩

theorem Reaches.agreesOn (h : s.Reaches t) :
    s.machine.memory.AgreesOn (fun b a => ¬ s.machine.program.Changes b a) t.machine.memory := by
  refine h.induct_reached (P := fun t => s.machine.memory.AgreesOn
    (fun b a => ¬ s.machine.program.Changes b a) t.machine.memory) (.refl _ _) ?_
  intro t _ _ hr hm ih
  have hu := hm.agreesOn
  rw [hr.program_eq] at hu
  exact ih.trans hu

end Scan

namespace Machine

variable {m n : Machine} {budget count : Nat} {es : List CycleEnd}

theorem agreesOn_of_cycle {e : CycleEnd} (h : m.cycle budget = some e) :
    m.memory.AgreesOn (fun b a => ¬ m.program.Changes b a) e.machine.memory := by
  obtain ⟨s, _, _, hr, hm, _⟩ := exists_last_of_cycle h
  have hlast := hm.agreesOn
  rw [hr.program_eq] at hlast
  exact hr.agreesOn.trans hlast

theorem agreesOn_of_ends (h : m.ends budget count = some es) :
    m.memory.AgreesOn (fun b a => ¬ m.program.Changes b a) (m.after es).memory := by
  have hall : (m.after es).program = m.program ∧
      m.memory.AgreesOn (fun b a => ¬ m.program.Changes b a) (m.after es).memory := by
    refine ends_induct (P := fun k => k.program = m.program ∧
      m.memory.AgreesOn (fun b a => ¬ m.program.Changes b a) k.memory) ?_ h ⟨rfl, .refl _ _⟩
    rintro k e he ⟨hp, hk⟩
    have hcycle := agreesOn_of_cycle he
    rw [hp] at hcycle
    exact ⟨(program_eq_of_cycle he).trans hp, hk.trans hcycle⟩
  exact hall.2

/-- Two machines with the same program and step limit, whose memories agree on the cells that the
program uses, run cycle by cycle with the same outcomes and the same gains and agree on these cells
again. Neither run changes a cell that is no destination of the program. -/
theorem ends_confined (hp : n.program = m.program) (hl : n.stepLimit = m.stepLimit)
    (hm : m.memory.AgreesOn m.program.Uses n.memory) (h : m.ends budget count = some es) :
    ∃ es', n.ends budget count = some es' ∧ es'.map (·.outcome) = es.map (·.outcome) ∧
      n.gains es' = m.gains es ∧
      (m.after es).memory.AgreesOn m.program.Uses (n.after es').memory ∧
      m.memory.AgreesOn (fun b a => ¬ m.program.Changes b a) (m.after es).memory ∧
      n.memory.AgreesOn (fun b a => ¬ m.program.Changes b a) (n.after es').memory := by
  have halike : m.Alike (Memory.AgreesOn m.program.Uses) n := ⟨hp, hl, hm⟩
  obtain ⟨es', hes', ho, hgains, hend⟩ := halike.exists_ends m.program.respects_agreesOn h
  have hn := agreesOn_of_ends hes'
  rw [hp] at hn
  exact ⟨es', hes', ho, hgains, hend.memory, agreesOn_of_ends h, hn⟩

/-- A jump, a copy and a division by zero, in a memory with just the cells that are used and in a
larger one. -/
theorem ends_confined_larger :
    let program : Program := ⟨#[.increment 0, .ifBitSet 0 3, .copyBit 1 0,
      .arithmetic Opcode.divide.code 0 0 1, .endOfProgram]⟩
    let m : Machine := { program, memory := ⟨#[true, false], #[5, 0]⟩ }
    let n : Machine :=
      { program, memory := ⟨#[true, false, true], #[5, 0, -9]⟩, statistics := { cycles := 7 } }
    m.memory.AgreesOn program.Uses n.memory ∧
      ∃ es es', m.ends 9 2 = some es ∧ n.ends 9 2 = some es' ∧
        es'.map (·.outcome) = [.completed, .completed] ∧
        n.gains es' = List.replicate 2 { cycles := 1, instructions := 5, divisionsByZero := 1 } ∧
        (n.after es').memory.integer? 2 = some (-9) := by
  intro program m n
  have hsmall : ∀ i ∈ program.instructions.toList, ∀ o ∈ i.decode.operands,
      (operandAddress? o.2).all (· < 2) = true := by decide
  have hused {b : Bank} {a : Nat} (hu : program.Uses b a) : a < 2 := by
    obtain ⟨i, hi, o, ho, -, ha⟩ := hu
    have hall := hsmall i hi o ho
    rw [ha] at hall
    exact of_decide_eq_true hall
  have hcells : ∀ a < 2, n.memory.bit? a = m.memory.bit? a ∧
      n.memory.integer? a = m.memory.integer? a := by decide
  have hm : m.memory.AgreesOn program.Uses n.memory :=
    ⟨fun hu => (hcells _ (hused hu)).1, fun hu => (hcells _ (hused hu)).2⟩
  have hrun : (m.ends 9 2).map (fun es => (es.map (·.outcome), m.gains es)) =
      some ([.completed, .completed],
        List.replicate 2 { cycles := 1, instructions := 5, divisionsByZero := 1 }) := by decide
  obtain ⟨es, hes, hend⟩ := Option.map_eq_some_iff.1 hrun
  obtain ⟨houtcomes, hgains⟩ := Prod.mk.inj hend
  obtain ⟨es', hes', ho, hg, -, -, hn⟩ := ends_confined (m := m) (n := n) rfl rfl hm hes
  refine ⟨hm, es, es', hes, hes', ho.trans houtcomes, hg.trans hgains, ?_⟩
  have hkept : ¬ program.Changes .int 2 := by
    rintro ⟨i, hi, hc⟩
    exact absurd (hused ⟨i, hi, hc.uses⟩) (by decide)
  exact hn.integer?_eq hkept

end Machine

end LadderMachine
