import Mathlib.Data.List.Forall2
import LadderMachine.Proofs.Machine.Counters
import LadderMachine.Proofs.Machine.Runs

/-!
# Programs with the same operations

Of an instruction the machine uses nothing but the operation that it decodes to. So machines that are
`Twins`, which differ at most in the records behind their operations, in tracing and in what they have
warned of, run in step: every cycle ends for both or for neither, with the same outcome, memory and
statistics.
-/

namespace LadderMachine

/-- Instruction by instruction, both programs decode to the same operations. -/
def Program.SameOperations (p q : Program) : Prop :=
  List.Forall₂ (fun i j => i.decode = j.decode) p.instructions.toList q.instructions.toList

namespace Program.SameOperations

variable {p q : Program} {i : Instruction} {pc : Nat}

theorem symm (h : p.SameOperations q) : q.SameOperations p :=
  h.flip.imp fun _ _ => Eq.symm

theorem length_eq (h : p.SameOperations q) : q.length = p.length := by
  have hl := List.Forall₂.length_eq h
  rw [Array.length_toList, Array.length_toList] at hl
  exact hl.symm

theorem fetch?_eq_none (h : p.SameOperations q) (hi : p.fetch? pc = none) : q.fetch? pc = none := by
  rw [fetch?_eq_none_iff] at hi ⊢
  rwa [h.length_eq]

theorem exists_fetch? (h : p.SameOperations q) (hi : p.fetch? pc = some i) :
    ∃ j, q.fetch? pc = some j ∧ j.decode = i.decode := by
  have hlt := lt_length_of_fetch? hi
  have hlt' : pc < q.length := h.length_eq ▸ hlt
  refine ⟨q.instructions[pc], Array.getElem?_eq_getElem hlt', ?_⟩
  obtain rfl : p.instructions[pc] = i := (Array.getElem?_eq_some_iff.1 hi).2
  exact ((List.forall₂_iff_get.1 h).2 pc hlt hlt').symm

end Program.SameOperations

/-- Machines with the same operations, limit, memory and statistics. -/
structure Machine.Twins (m n : Machine) : Prop where
  operations : m.program.SameOperations n.program
  stepLimit_eq : n.stepLimit = m.stepLimit
  memory_eq : n.memory = m.memory
  statistics_eq : n.statistics = m.statistics

structure Scan.Twins (s t : Scan) : Prop where
  machine : s.machine.Twins t.machine
  pc_eq : t.pc = s.pc
  steps_eq : t.steps = s.steps

inductive Progress.Twins : Progress → Progress → Prop
  | running {s t : Scan} (h : s.Twins t) : Twins (.running s) (.running t)
  | ended {outcome : Outcome} {m n : Machine} (h : m.Twins n) :
    Twins (.ended outcome m) (.ended outcome n)

namespace Machine.Twins

variable {m n : Machine}

theorem symm (h : m.Twins n) : n.Twins m :=
  ⟨h.operations.symm, h.stepLimit_eq.symm, h.memory_eq.symm, h.statistics_eq.symm⟩

theorem count (h : m.Twins n) (f : Statistics → Statistics) :
    Twins { m with statistics := f m.statistics } { n with statistics := f n.statistics } :=
  ⟨h.operations, h.stepLimit_eq, h.memory_eq, congrArg f h.statistics_eq⟩

end Machine.Twins

namespace Scan

variable {s t : Scan} {p : Progress} {i j : Instruction} {events : List Event}

theorem Twins.noted (h : s.Twins t) (hd : j.decode = i.decode) :
    (s.noted i).value.Twins (t.noted j).value := by
  have heffect : t.effect j = s.effect i := by
    rw [effect, effect, hd, h.machine.memory_eq]
  refine ⟨?_, ?_, ?_, ?_⟩
  · rw [program_noted, program_noted]
    exact h.machine.operations
  · rw [stepLimit_noted, stepLimit_noted, h.machine.stepLimit_eq]
  · rw [memory_noted, memory_noted, heffect]
  · rw [statistics_noted, statistics_noted, heffect, h.machine.statistics_eq]

theorem Twins.reachedLimit?_eq (h : s.Twins t) :
    t.machine.reachedLimit? t.steps = s.machine.reachedLimit? s.steps := by
  rw [Machine.reachedLimit?, Machine.reachedLimit?, h.machine.stepLimit_eq, h.steps_eq]

theorem Twins.exists_fetch? (h : s.Twins t) (hi : s.machine.program.fetch? s.pc = some i) :
    ∃ j, t.machine.program.fetch? t.pc = some j ∧ j.decode = i.decode ∧
      (t.effect j).flow = (s.effect i).flow := by
  obtain ⟨j, hj, hd⟩ := h.machine.operations.exists_fetch? hi
  refine ⟨j, h.pc_eq ▸ hj, hd, ?_⟩
  rw [effect, effect, hd, h.machine.memory_eq]

/-- What one twin does next, the other does too. -/
theorem Moves.exists_twins (hm : s.Moves p events) (h : s.Twins t) :
    ∃ q events', t.Moves q events' ∧ p.Twins q := by
  have hl := h.reachedLimit?_eq
  cases hm with
  | pastEnd hi =>
    have hi' := h.machine.operations.fetch?_eq_none hi
    rw [← h.pc_eq] at hi'
    exact ⟨_, _, .pastEnd hi',
      .ended (h.machine.count fun c => { c with ranPastEnd := c.ranPastEnd + 1 })⟩
  | limit hi hlim =>
    obtain ⟨j, hj, -⟩ := h.exists_fetch? hi
    have hq := Moves.limit hj (hl.trans hlim)
    rw [h.steps_eq] at hq
    exact ⟨_, _, hq,
      .ended (h.machine.count fun c => { c with stepLimitTrips := c.stepLimitTrips + 1 })⟩
  | next hi hlim hf =>
    obtain ⟨j, hj, hd, hflow⟩ := h.exists_fetch? hi
    refine ⟨_, _, .next hj (hl.trans hlim) (hflow.trans hf), .running ⟨h.noted hd, ?_, ?_⟩⟩
    · exact congrArg (· + 1) h.pc_eq
    · exact congrArg (· + 1) h.steps_eq
  | jump hi hlim hf ht hn =>
    obtain ⟨j, hj, hd, hflow⟩ := h.exists_fetch? hi
    rw [← h.machine.operations.length_eq] at hn
    have hjumped : (s.noted _).value.countJump.Twins (t.noted j).value.countJump :=
      (h.noted hd).count fun c => { c with jumpsTaken := c.jumpsTaken + 1 }
    refine ⟨_, _, .jump hj (hl.trans hlim) (hflow.trans hf) ht hn, .running ⟨hjumped, rfl, ?_⟩⟩
    exact congrArg (· + 1) h.steps_eq
  | finish hi hlim hf =>
    obtain ⟨j, hj, hd, hflow⟩ := h.exists_fetch? hi
    exact ⟨_, _, .finish hj (hl.trans hlim) (hflow.trans hf), .ended (h.noted hd)⟩
  | astray hi hlim hf ht =>
    obtain ⟨j, hj, hd, hflow⟩ := h.exists_fetch? hi
    rw [← h.machine.operations.length_eq] at ht
    have hq := Moves.astray hj (hl.trans hlim) (hflow.trans hf) ht
    rw [h.pc_eq] at hq
    exact ⟨_, _, hq,
      .ended ((h.noted hd).count fun c => { c with addressFaults := c.addressFaults + 1 })⟩

theorem Twins.exists_run {budget : Nat} {log log' : Array Event} {e : CycleEnd} (h : s.Twins t)
    (he : s.run budget log = some e) :
    ∃ e', t.run budget log' = some e' ∧ e'.outcome = e.outcome ∧ e.machine.Twins e'.machine := by
  induction budget generalizing s t log log' with
  | zero => exact absurd he (by simp [run])
  | succ budget ih =>
    cases s using moves_cases with
    | ended outcome m events hm =>
      rw [run_succ_of_ended hm.step_eq] at he
      cases he
      obtain ⟨_, events', hq, htwins⟩ := hm.exists_twins h
      cases htwins with
      | ended htwins => exact ⟨_, run_succ_of_ended hq.step_eq budget log', rfl, htwins⟩
    | running next events hm =>
      rw [run_succ_of_running hm.step_eq] at he
      obtain ⟨_, events', hq, htwins⟩ := hm.exists_twins h
      cases htwins with
      | running htwins =>
        obtain ⟨e', he', hend⟩ := ih htwins he
        exact ⟨e', by rw [run_succ_of_running hq.step_eq, he'], hend⟩

end Scan

/-- What a cycle leaves behind: how it ended, the memory and the statistics. -/
def CycleEnd.result (e : CycleEnd) : Outcome × Memory × Statistics :=
  (e.outcome, e.machine.memory, e.machine.statistics)

namespace Machine.Twins

variable {m n : Machine} {budget count : Nat} {e : CycleEnd} {es : List CycleEnd}

theorem exists_cycle (h : m.Twins n) (he : m.cycle budget = some e) :
    ∃ e', n.cycle budget = some e' ∧ e'.outcome = e.outcome ∧ e.machine.Twins e'.machine := by
  have hstart : m.start.Twins n.start :=
    ⟨h.count fun c => { c with cycles := c.cycles + 1 }, rfl, rfl⟩
  exact hstart.exists_run he

theorem exists_ends (h : m.Twins n) (hes : m.ends budget count = some es) :
    ∃ es', n.ends budget count = some es' ∧ es'.map CycleEnd.result = es.map CycleEnd.result := by
  induction count generalizing m n es with
  | zero =>
    cases hes
    exact ⟨[], rfl, rfl⟩
  | succ count ih =>
    obtain ⟨e, later, he, hlater, rfl⟩ := ends_succ_eq_some_iff.1 hes
    obtain ⟨e', he', ho, hend⟩ := h.exists_cycle he
    obtain ⟨later', hlater', hresults⟩ := ih hend hlater
    refine ⟨e' :: later', ends_succ_eq_some_iff.2 ⟨e', later', he', hlater', rfl⟩, ?_⟩
    have hresult : e'.result = e.result := by
      rw [CycleEnd.result, CycleEnd.result, ho, hend.memory_eq, hend.statistics_eq]
    rw [List.map_cons, List.map_cons, hresult, hresults]

/-- Cycles of twins end alike, or run out of the same budget. -/
theorem results_eq (h : m.Twins n) (budget count : Nat) :
    (m.ends budget count).map (·.map CycleEnd.result) =
      (n.ends budget count).map (·.map CycleEnd.result) := by
  cases hm : m.ends budget count with
  | some es =>
    obtain ⟨es', hn, hresults⟩ := h.exists_ends hm
    rw [hn, Option.map_some, Option.map_some, hresults]
  | none =>
    cases hn : n.ends budget count with
    | none => rfl
    | some es =>
      obtain ⟨es', hm', -⟩ := h.symm.exists_ends hn
      cases hm.symm.trans hm'

end Machine.Twins

end LadderMachine
