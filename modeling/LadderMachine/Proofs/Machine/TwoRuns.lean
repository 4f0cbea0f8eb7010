import LadderMachine.Proofs.Machine.Counters

/-!
# Two runs of one program

Two machines with the same program and step limit run alike from related memories, if the
instructions of the program treat related memories alike: they pass the same addresses, end in the
same way with memories that are related again, and count the same. What either has counted or reported
before does not matter.
-/

namespace LadderMachine

variable {R : Memory → Memory → Prop}

/-- In related memories each instruction of the program sends control the same way, with the same
anomaly, and leaves related memories. -/
structure Program.Respects (p : Program) (R : Memory → Memory → Prop) : Prop where
  flow_eq {pc : Nat} {i : Instruction} (hi : p.fetch? pc = some i) {m n : Memory} (h : R m n) :
    (i.decode.execute n).flow = (i.decode.execute m).flow
  anomaly_eq {pc : Nat} {i : Instruction} (hi : p.fetch? pc = some i) {m n : Memory} (h : R m n) :
    (i.decode.execute n).anomaly = (i.decode.execute m).anomaly
  memory {pc : Nat} {i : Instruction} (hi : p.fetch? pc = some i) {m n : Memory} (h : R m n) :
    R (i.decode.execute m).memory (i.decode.execute n).memory

theorem Program.respects_eq (p : Program) : p.Respects Eq where
  flow_eq _ _ _ h := by rw [h]
  anomaly_eq _ _ _ h := by rw [h]
  memory _ _ _ h := by rw [h]

/-- Machines with the same program and step limit and with related memories. -/
structure Machine.Alike (R : Memory → Memory → Prop) (m n : Machine) : Prop where
  program_eq : n.program = m.program
  stepLimit_eq : n.stepLimit = m.stepLimit
  memory : R m.memory n.memory

structure Scan.Alike (R : Memory → Memory → Prop) (s t : Scan) : Prop where
  machine : s.machine.Alike R t.machine
  pc_eq : t.pc = s.pc
  steps_eq : t.steps = s.steps

inductive Progress.Alike (R : Memory → Memory → Prop) : Progress → Progress → Prop
  | running {s t : Scan} (h : s.Alike R t) : Alike R (.running s) (.running t)
  | ended {outcome : Outcome} {m n : Machine} (h : m.Alike R n) :
    Alike R (.ended outcome m) (.ended outcome n)

namespace Scan

variable {s t : Scan} {p : Progress} {i : Instruction} {events : List Event}

theorem Alike.noted (h : s.Alike R t) (hR : s.machine.program.Respects R)
    (hi : s.machine.program.fetch? s.pc = some i) :
    (s.noted i).value.Alike R (t.noted i).value where
  program_eq := by rw [program_noted, program_noted, h.machine.program_eq]
  stepLimit_eq := by rw [stepLimit_noted, stepLimit_noted, h.machine.stepLimit_eq]
  memory := by
    rw [memory_noted, memory_noted]
    exact hR.memory hi h.machine.memory

theorem Alike.growAlike_noted (h : s.Alike R t) (hR : s.machine.program.Respects R)
    (hi : s.machine.program.fetch? s.pc = some i) :
    s.machine.GrowAlike (s.noted i).value t.machine (t.noted i).value := by
  have hgain : (t.effect i).gain = (s.effect i).gain := by
    rw [Effect.gain, Effect.gain, effect, effect, hR.anomaly_eq hi h.machine.memory]
  exact ⟨(s.effect i).gain, statistics_noted s i, hgain ▸ statistics_noted t i⟩

theorem Alike.fetch?_eq (h : s.Alike R t) :
    t.machine.program.fetch? t.pc = s.machine.program.fetch? s.pc := by
  rw [h.machine.program_eq, h.pc_eq]

theorem Alike.reachedLimit?_eq (h : s.Alike R t) :
    t.machine.reachedLimit? t.steps = s.machine.reachedLimit? s.steps := by
  rw [Machine.reachedLimit?, Machine.reachedLimit?, h.machine.stepLimit_eq, h.steps_eq]

theorem Moves.exists_alike (hm : s.Moves p events) (h : s.Alike R t)
    (hR : s.machine.program.Respects R) :
    ∃ q events', t.Moves q events' ∧ p.Alike R q ∧
      s.machine.GrowAlike p.machine t.machine q.machine := by
  have hp := h.machine.program_eq
  cases hm with
  | pastEnd hi =>
    refine ⟨_, _, .pastEnd (h.fetch?_eq.trans hi), .ended ⟨hp, h.machine.stepLimit_eq, ?_⟩,
      { ranPastEnd := 1 }, rfl, rfl⟩
    exact h.machine.memory
  | limit hi hlim =>
    have hq := Moves.limit (h.fetch?_eq.trans hi) (h.reachedLimit?_eq.trans hlim)
    rw [h.steps_eq] at hq
    refine ⟨_, _, hq, .ended ⟨hp, h.machine.stepLimit_eq, ?_⟩, { stepLimitTrips := 1 }, rfl, rfl⟩
    exact h.machine.memory
  | next hi hlim hf =>
    have hq := Moves.next (h.fetch?_eq.trans hi) (h.reachedLimit?_eq.trans hlim)
      ((hR.flow_eq hi h.machine.memory).trans hf)
    refine ⟨_, _, hq, .running ⟨h.noted hR hi, ?_, ?_⟩, h.growAlike_noted hR hi⟩
    · exact congrArg (· + 1) h.pc_eq
    · exact congrArg (· + 1) h.steps_eq
  | @jump i target next hi hlim hf ht hn =>
    have hq := Moves.jump (h.fetch?_eq.trans hi) (h.reachedLimit?_eq.trans hlim)
      ((hR.flow_eq hi h.machine.memory).trans hf) ht (hp ▸ hn)
    have hjump : Machine.GrowAlike (s.noted i).value (s.noted i).value.countJump
        (t.noted i).value (t.noted i).value.countJump := ⟨{ jumpsTaken := 1 }, rfl, rfl⟩
    obtain ⟨hp', hl', hm'⟩ := h.noted hR hi
    refine ⟨_, _, hq, .running ⟨⟨hp', hl', hm'⟩, rfl, ?_⟩, (h.growAlike_noted hR hi).trans hjump⟩
    exact congrArg (· + 1) h.steps_eq
  | finish hi hlim hf =>
    have hq := Moves.finish (h.fetch?_eq.trans hi) (h.reachedLimit?_eq.trans hlim)
      ((hR.flow_eq hi h.machine.memory).trans hf)
    exact ⟨_, _, hq, .ended (h.noted hR hi), h.growAlike_noted hR hi⟩
  | @astray i target hi hlim hf ht =>
    have hq := Moves.astray (h.fetch?_eq.trans hi) (h.reachedLimit?_eq.trans hlim)
      ((hR.flow_eq hi h.machine.memory).trans hf) (hp ▸ ht)
    rw [h.pc_eq] at hq
    have hfault : Machine.GrowAlike (s.noted i).value (s.noted i).value.countAddressFault
        (t.noted i).value (t.noted i).value.countAddressFault := ⟨{ addressFaults := 1 }, rfl, rfl⟩
    obtain ⟨hp', hl', hm'⟩ := h.noted hR hi
    exact ⟨_, _, hq, .ended ⟨hp', hl', hm'⟩, (h.growAlike_noted hR hi).trans hfault⟩

theorem exists_run_alike {budget : Nat} {log log' : Array Event} {e : CycleEnd} (h : s.Alike R t)
    (hR : s.machine.program.Respects R) (he : s.run budget log = some e) :
    ∃ e', t.run budget log' = some e' ∧ e'.outcome = e.outcome ∧ e.machine.Alike R e'.machine ∧
      s.machine.GrowAlike e.machine t.machine e'.machine := by
  induction budget generalizing s t log log' with
  | zero => exact absurd he (by simp [run])
  | succ budget ih =>
    have hm := moves_step s
    cases hs : s.step with
    | mk progress events =>
      rw [hs] at hm
      obtain ⟨q, events', hq, halike, hgrow⟩ := hm.exists_alike h hR
      cases halike with
      | running halike =>
        rw [run_succ_of_running hs] at he
        have hR' := hR
        rw [← (hm.program_eq : _ = s.machine.program)] at hR'
        obtain ⟨e', he', ho, hend, hgrow'⟩ := ih halike hR' he
        exact ⟨e', by rw [run_succ_of_running hq.step_eq, he'], ho, hend, hgrow.trans hgrow'⟩
      | @ended outcome m n halike =>
        rw [run_succ_of_ended hs] at he
        cases he
        exact ⟨_, run_succ_of_ended hq.step_eq budget log', rfl, halike, hgrow⟩

end Scan

/-- A cycle of one machine ends as the cycle of the other does, within the same budget. -/
theorem Machine.Alike.exists_cycle {m n : Machine} {budget : Nat} {e : CycleEnd} (h : m.Alike R n)
    (hR : m.program.Respects R) (he : m.cycle budget = some e) :
    ∃ e', n.cycle budget = some e' ∧ e'.outcome = e.outcome ∧ e.machine.Alike R e'.machine ∧
      m.GrowAlike e.machine n e'.machine := by
  have hstart : m.start.Alike R n.start := ⟨⟨h.program_eq, h.stepLimit_eq, h.memory⟩, rfl, rfl⟩
  obtain ⟨e', he', ho, hend, hgrow⟩ := Scan.exists_run_alike hstart hR he
  have hcounted : m.GrowAlike m.countCycle n n.countCycle := ⟨{ cycles := 1 }, rfl, rfl⟩
  exact ⟨e', he', ho, hend, hcounted.trans hgrow⟩

end LadderMachine
