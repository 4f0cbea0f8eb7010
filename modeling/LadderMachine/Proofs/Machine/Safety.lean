import LadderMachine.Proofs.Machine.History

/-!
# Accepted programs run safely

Validation looks at an operation only through its jump target and its operands. What it asks of these
is enough for whole histories: no cycle jumps astray or leaves the program but behind its last
instruction, and in a memory with room for the geometry no operand ever misses its cell.
-/

namespace LadderMachine

namespace Scan

variable {s t : Scan} {p : Progress} {events : List Event}

/-- The point lies within the program or directly behind an instruction that is no end marker. -/
structure Inside (s : Scan) : Prop where
  pc_le : s.pc ≤ s.machine.program.length
  last_of_pc_eq : s.pc = s.machine.program.length →
    ∃ i, s.machine.program.fetch? (s.pc - 1) = some i ∧ i.decode ≠ .endOfProgram

theorem Moves.inside (hm : s.Moves (.running t) events) : t.Inside := by
  have hp : t.machine.program = s.machine.program := hm.program_eq
  cases hm with
  | @next i hi hl hf =>
    have hlt := Program.lt_length_of_fetch? hi
    refine ⟨?_, fun _ => ⟨i, ?_, fun hd => ?_⟩⟩
    · rw [hp]
      exact hlt
    · rw [hp]
      exact hi
    · rw [effect, Operation.flow_eq_finish_iff.2 hd] at hf
      exact absurd hf (by decide)
  | jump hi hl hf ht hn =>
    rw [← hp] at hn
    exact ⟨Nat.le_of_lt hn, fun he => absurd he (Nat.ne_of_lt hn)⟩

theorem Reaches.inside (h : s.Reaches t) (hs : s.Inside) : t.Inside :=
  h.induct hs fun hm _ => hm.inside

theorem Moves.outcome_ne_invalidJump {outcome : Outcome} {m : Machine}
    (hm : s.Moves (.ended outcome m) events) (ha : s.machine.program.Accepted) (pc : Nat)
    (target : Int16) : outcome ≠ .invalidJump pc target := by
  cases hm with
  | pastEnd | limit | finish => simp
  | astray hi hl hf ht =>
    have hj := ha.jumpFits hi _ (Operation.jumpTarget?_of_flow hf)
    rw [hj] at ht
    exact absurd ht (by simp)

theorem addressFaults_noted {i : Instruction} (hi : s.machine.program.fetch? s.pc = some i)
    (ha : s.machine.program.AcceptedWithin s.machine.memory.capacity) :
    (s.noted i).value.statistics.addressFaults = s.machine.statistics.addressFaults := by
  have hne : (s.effect i).anomaly ≠ some .operandOutside :=
    Operation.anomaly_ne_operandOutside (ha.operandsFit hi)
  rw [noted, Machine.addressFaults_note _ _ _ hne]
  rfl

theorem Moves.addressFaults_eq (hm : s.Moves p events)
    (ha : s.machine.program.AcceptedWithin s.machine.memory.capacity) :
    p.machine.statistics.addressFaults = s.machine.statistics.addressFaults := by
  cases hm with
  | pastEnd | limit => rfl
  | next hi | jump hi | finish hi => exact addressFaults_noted hi ha
  | astray hi hl hf ht =>
    have hj := ha.accepted.jumpFits hi _ (Operation.jumpTarget?_of_flow hf)
    rw [hj] at ht
    exact absurd ht (by simp)

theorem Reaches.addressFaults_eq (h : s.Reaches t)
    (ha : s.machine.program.AcceptedWithin s.machine.memory.capacity) :
    t.machine.statistics.addressFaults = s.machine.statistics.addressFaults := by
  refine h.induct_reached (P := fun t =>
    t.machine.statistics.addressFaults = s.machine.statistics.addressFaults) rfl ?_
  intro t _ _ hr hm ih
  have hc : t.machine.memory.capacity = s.machine.memory.capacity := funext hr.capacity_eq
  exact (hm.addressFaults_eq (by rw [hr.program_eq, hc]; exact ha)).trans ih

end Scan

/-- The cycle did not jump astray, and it ran past the end only from directly behind a last
instruction that is no end marker. -/
structure CycleEnd.Regular (e : CycleEnd) : Prop where
  outcome_ne_invalidJump (pc : Nat) (target : Int16) : e.outcome ≠ .invalidJump pc target
  ranPastEnd : e.outcome = .ranPastEnd →
    e.events.getLast? = some (.ranPastEnd e.machine.program.length) ∧
      ∃ i, e.machine.program.fetch? (e.machine.program.length - 1) = some i ∧
        i.decode ≠ .endOfProgram

namespace Machine

variable {m m' : Machine} {turns : List Turn}

/-- The first instruction of a cycle is there, because an accepted program is not empty. -/
theorem inside_start (ha : m.program.Accepted) : m.start.Inside where
  pc_le := Nat.zero_le _
  last_of_pc_eq h := absurd h (Nat.ne_of_lt ha.length_pos)

theorem regular_of_cycle {budget : Nat} {e : CycleEnd} (ha : m.program.Accepted)
    (h : m.cycle budget = some e) : e.Regular := by
  obtain ⟨s, before, events, hr, hm, he⟩ := exists_last_of_cycle h
  have hp : s.machine.program = m.program := hr.program_eq
  have hin := hr.inside (inside_start ha)
  refine ⟨hm.outcome_ne_invalidJump (hp ▸ ha), fun ho => ?_⟩
  have hq : e.machine.program = s.machine.program := hm.program_eq
  rw [ho] at hm
  generalize e.machine = done at hm hq
  cases hm with
  | pastEnd hi =>
    have hpc : s.pc = s.machine.program.length :=
      Nat.le_antisymm hin.pc_le (Program.fetch?_eq_none_iff.1 hi)
    have hlast := hin.last_of_pc_eq hpc
    rw [hpc] at hlast
    rw [he, hq, hpc]
    exact ⟨List.getLast?_concat, hlast⟩

theorem addressFaults_of_cycle {budget : Nat} {e : CycleEnd}
    (ha : m.program.AcceptedWithin m.memory.capacity) (h : m.cycle budget = some e) :
    e.machine.statistics.addressFaults = m.statistics.addressFaults := by
  obtain ⟨s, _, _, hr, hm, _⟩ := exists_last_of_cycle h
  have hc : s.machine.memory.capacity = m.memory.capacity := funext hr.capacity_eq
  have hp : s.machine.program = m.program := hr.program_eq
  exact (hm.addressFaults_eq (by rw [hp, hc]; exact ha)).trans (hr.addressFaults_eq ha)

theorem History.accepted (h : m.History turns m') (ha : m.program.Accepted)
    (hr : ∀ p, .replace p ∈ turns → p.Accepted) : m'.program.Accepted := by
  refine h.induct (P := fun m => m.program.Accepted) ha fun turn hturn m₁ m₂ ht h₁ => ?_
  cases ht with
  | cycle hc => exact program_eq_of_cycle hc ▸ h₁
  | write => exact h₁
  | replace p => exact hr p hturn

theorem History.addressFaults_eq (h : m.History turns m')
    (ha : m.program.AcceptedWithin m.memory.capacity)
    (hr : ∀ p, .replace p ∈ turns → p.AcceptedWithin m.memory.capacity) :
    m'.memory.capacity = m.memory.capacity ∧ m'.program.AcceptedWithin m.memory.capacity ∧
      m'.statistics.addressFaults = m.statistics.addressFaults := by
  refine h.induct (P := fun n => n.memory.capacity = m.memory.capacity ∧
    n.program.AcceptedWithin m.memory.capacity ∧
    n.statistics.addressFaults = m.statistics.addressFaults) ⟨rfl, ha, rfl⟩ ?_
  rintro turn hturn m₁ m₂ ht ⟨hc, hp, hf⟩
  refine ⟨(funext ht.capacity_eq).trans hc, ?_⟩
  cases ht with
  | cycle hd =>
    rw [program_eq_of_cycle hd, addressFaults_of_cycle (hc ▸ hp) hd]
    exact ⟨hp, hf⟩
  | write => exact ⟨hp, hf⟩
  | replace p => exact ⟨hr p hturn, hf⟩

/-- Whatever the size of memory, accepted programs run regularly through every history, and no point
of a cycle lies beyond its program; each cycle of a history starts where a shorter history ends. If
memory has room for what the programs were accepted for, no address fault is ever counted. -/
theorem history_safe (ha : m.program.Accepted) (hr : ∀ p, .replace p ∈ turns → p.Accepted)
    (h : m.History turns m') :
    (∀ e, .cycle e ∈ turns → e.Regular) ∧
      (∀ s, m'.start.Reaches s → s.pc ≤ s.machine.program.length) ∧
      (m.program.AcceptedWithin m.memory.capacity →
        (∀ p, .replace p ∈ turns → p.AcceptedWithin m.memory.capacity) →
        m'.statistics.addressFaults = m.statistics.addressFaults ∧
          ∀ s, m'.start.Reaches s →
            s.machine.statistics.addressFaults = m.statistics.addressFaults) := by
  refine ⟨fun e he => ?_, fun s hs => ?_, fun hm hp => ?_⟩
  · obtain ⟨before, m₁, m₂, hsub, hb, ht⟩ := h.exists_takes he
    cases ht with
    | cycle hc => exact regular_of_cycle (hb.accepted ha fun p hp => hr p (hsub hp)) hc
  · exact (hs.inside (inside_start (h.accepted ha hr))).pc_le
  · obtain ⟨hc, hp', hf⟩ := h.addressFaults_eq hm hp
    refine ⟨hf, fun s hs => ?_⟩
    have hs' := hs.addressFaults_eq (by rw [start, countCycle, hc]; exact hp')
    exact hs'.trans hf

/-- A refused write, another program, and a cycle of that program which runs past its end. -/
theorem history_safe_past_end :
    let first : Program := ⟨#[.setBit 1, .endOfProgram]⟩
    let second : Program := ⟨#[.jump 2, .endOfProgram, .increment 0]⟩
    let m : Machine := { program := first, memory := .zero 2 1, stepLimit := some 9 }
    ∃ e, m.History [.write (.bit 7 true), .replace second, .cycle e] e.machine ∧
      e.outcome = .ranPastEnd ∧ e.Regular ∧ e.machine.statistics.addressFaults = 0 := by
  intro first second m
  have hfirst : first.AcceptedWithin m.memory.capacity :=
    ⟨⟨2, 1, 3⟩, first.instructions.toList, by decide, fun b => by cases b <;> decide⟩
  have hsecond : second.AcceptedWithin m.memory.capacity :=
    ⟨⟨2, 1, 3⟩, second.instructions.toList, by decide, fun b => by cases b <;> decide⟩
  let n : Machine := { m with memory := m.memory.host (.bit 7 true) }
  obtain ⟨e, he, ho⟩ : ∃ e, (n.replaceProgram second).cycle 9 = some e ∧ e.outcome = .ranPastEnd := by
    have hc : ((n.replaceProgram second).cycle 9).map (·.outcome) = some .ranPastEnd := by decide
    exact Option.map_eq_some_iff.1 hc
  have h : m.History [.write (.bit 7 true), .replace second, .cycle e] e.machine :=
    .turn (.turn (.turn .start (.write _)) (.replace second)) (.cycle he)
  have hr : ∀ p, Turn.replace p ∈ [.write (.bit 7 true), .replace second, .cycle e] →
      p.AcceptedWithin m.memory.capacity := by
    intro p hp
    simp only [List.mem_cons, reduceCtorEq, Turn.replace.injEq, List.not_mem_nil, or_false,
      false_or] at hp
    exact hp ▸ hsecond
  obtain ⟨hreg, _, hfaults⟩ := history_safe hfirst.accepted (fun p hp => (hr p hp).accepted) h
  exact ⟨e, h, ho, hreg e (by simp), (hfaults hfirst hr).1⟩

end Machine

end LadderMachine
