import LadderMachine.Proofs.Machine.Course
import LadderMachine.Proofs.Machine.Safety

/-!
# Backward jumps

Between two jumps backward the address of the next instruction only grows, so a cycle executes at most
as many instructions as the program has, once at the start and once more for each jump backward. A
program whose jumps all lead forward therefore ends every cycle by itself.
-/

namespace LadderMachine

/-- The instruction at this point jumps to its own address or to one before it. -/
def Scan.jumpsBack (s : Scan) : Bool :=
  match s.instruction? with
  | none => false
  | some i =>
    match (s.effect i).flow with
    | .jump target => (operandAddress? target).any (· ≤ s.pc)
    | _ => false

def Program.JumpsForward (p : Program) : Prop :=
  ∀ (pc : Nat) (h : pc < p.instructions.size), ∀ target ∈ p.instructions[pc].decode.jumpTarget?,
    (pc : Int) < target.toInt

instance (p : Program) : Decidable p.JumpsForward :=
  -- Targets are looked for in the program, not among all the words there are.
  have (pc : Nat) (h : pc < p.instructions.size) :
      Decidable (∀ target ∈ p.instructions[pc].decode.jumpTarget?, (pc : Int) < target.toInt) :=
    Option.decidableForallMem _
  Nat.decidableBallLT p.instructions.size fun pc h =>
    ∀ target ∈ p.instructions[pc].decode.jumpTarget?, (pc : Int) < target.toInt

namespace Scan

variable {s t : Scan} {i : Instruction} {p : Progress} {events : List Event} {budget : Nat}

theorem jumpsBack_of_fetch (hi : s.machine.program.fetch? s.pc = some i)
    (hl : s.machine.reachedLimit? s.steps = none) {target : Int16} {next : Nat}
    (hf : (s.effect i).flow = .jump target) (ht : operandAddress? target = some next) :
    s.jumpsBack = decide (next ≤ s.pc) := by
  simp [jumpsBack, instruction?_of_fetch hi hl, hf, ht]

theorem exists_of_jumpsBack (h : s.jumpsBack = true) :
    ∃ i target next, s.machine.program.fetch? s.pc = some i ∧
      (s.effect i).flow = .jump target ∧ operandAddress? target = some next ∧ next ≤ s.pc := by
  rw [jumpsBack] at h
  split at h
  · exact absurd h (by simp)
  · next i hi =>
    split at h
    · next target hf =>
      cases ht : operandAddress? target with
      | none => exact absurd h (by simp [ht])
      | some next =>
        rw [ht] at h
        exact ⟨i, target, next, (fetch?_of_instruction? hi).1, hf, ht, of_decide_eq_true h⟩
    · exact absurd h (by simp)

theorem Moves.advances (h : s.Moves (.running t) events) :
    s.executes = true ∧ t.machine.program = s.machine.program ∧
      (s.pc < t.pc ∨ s.jumpsBack = true) ∧ t.pc ≤ s.machine.program.length := by
  have hp : t.machine.program = s.machine.program := h.program_eq
  cases h with
  | next hi hl hf =>
    have hlt := Program.lt_length_of_fetch? hi
    exact ⟨by simp [executes, instruction?_of_fetch hi hl], hp, .inl (Nat.lt_succ_self _), hlt⟩
  | @jump i target next hi hl hf ht hn =>
    refine ⟨by simp [executes, instruction?_of_fetch hi hl], hp, ?_, Nat.le_of_lt hn⟩
    rw [jumpsBack_of_fetch hi hl hf ht, decide_eq_true_iff]
    exact Nat.lt_or_ge s.pc next

/-- Instructions executed so far, from any point within the program on: every jump back allows for
another pass through the program. -/
theorem countP_executes_course_le (budget : Nat) (s : Scan)
    (hs : s.pc ≤ s.machine.program.length) :
    (s.course budget).countP executes + s.pc ≤
      s.machine.program.length * (1 + (s.course budget).countP jumpsBack) := by
  induction budget generalizing s with
  | zero => simpa [course] using hs
  | succ budget ih =>
    have hone : (if s.executes then 1 else 0) + s.pc ≤ s.machine.program.length := by
      by_cases he : s.executes = true
      · obtain ⟨i, hi⟩ := Option.isSome_iff_exists.1 he
        have hlt := Program.lt_length_of_fetch? (fetch?_of_instruction? hi).1
        rw [if_pos he]
        omega
      · rw [if_neg he]
        omega
    cases s using moves_cases with
    | @ended s outcome m events hm =>
      rw [hm.course_of_ended, List.countP_singleton]
      calc _ ≤ s.machine.program.length := hone
        _ ≤ _ := Nat.le_mul_of_pos_right _ (by omega)
    | @running s t events hm =>
      obtain ⟨hex, hp, hnext, hle⟩ := hm.advances
      have hrest := ih t (hp ▸ hle)
      rw [hp] at hrest
      rw [hm.course_of_running, List.countP_cons, List.countP_cons, if_pos hex]
      rw [if_pos hex] at hone
      by_cases hb : s.jumpsBack = true
      · rw [if_pos hb, ← Nat.add_assoc, Nat.mul_add_one]
        omega
      · have hlt := hnext.resolve_right hb
        simp only [if_neg hb, Nat.add_zero]
        omega

theorem countP_executes_of_run_eq_none (h : s.run budget #[] = none) :
    (s.course budget).countP executes = budget := by
  induction budget generalizing s with
  | zero => rfl
  | succ budget ih =>
    cases s using moves_cases with
    | ended outcome m events hm => exact absurd h (by simp [run_succ_of_ended hm.step_eq])
    | running t events hm =>
      rw [run_succ_of_running hm.step_eq, run_log, Option.map_eq_none_iff] at h
      rw [hm.course_of_running, List.countP_cons, if_pos hm.advances.1, ih h]

theorem jumpsBack_eq_false (hp : s.machine.program.JumpsForward) : s.jumpsBack = false := by
  by_contra hb
  rw [Bool.not_eq_false] at hb
  obtain ⟨i, target, next, hi, hf, ht, hle⟩ := exists_of_jumpsBack hb
  obtain ⟨hlt, hget⟩ := Array.getElem?_eq_some_iff.1 hi
  have htarget : target ∈ s.machine.program.instructions[s.pc].decode.jumpTarget? := by
    rw [hget]
    exact Operation.jumpTarget?_of_flow hf
  have hforward := hp s.pc hlt target htarget
  rw [toInt_of_operandAddress? ht] at hforward
  omega

theorem countP_jumpsBack_eq_zero (budget : Nat) (s : Scan) (hp : s.machine.program.JumpsForward) :
    (s.course budget).countP jumpsBack = 0 := by
  rw [List.countP_eq_zero]
  intro t ht
  rw [jumpsBack_eq_false ((reaches_of_mem_course ht).program_eq ▸ hp)]
  exact Bool.false_ne_true

theorem Reaches.steps_le_pc (h : s.Reaches t) (hp : s.machine.program.JumpsForward)
    (hs : s.steps ≤ s.pc) : t.steps ≤ t.pc := by
  refine h.induct_reached (P := fun t => t.steps ≤ t.pc) hs ?_
  intro t u events hr hm ih
  have hstep := hm.instructions_running.1
  have hback := jumpsBack_eq_false (s := t) (by rwa [hr.program_eq])
  have hlt := hm.advances.2.2.1.resolve_right (by simp [hback])
  omega

end Scan

namespace Machine

variable {m : Machine} {budget : Nat} {e : CycleEnd}

theorem outcome_ne_stepLimitReached (hp : m.program.JumpsForward)
    (hl : ∀ limit, m.stepLimit = some limit → m.program.length ≤ limit)
    (h : m.cycle budget = some e) (n : Nat) : e.outcome ≠ .stepLimitReached n := by
  intro ho
  obtain ⟨s, before, events, hr, hm, -⟩ := exists_last_of_cycle h
  rw [ho] at hm
  generalize e.machine = done at hm
  cases hm with
  | @limit i limit hi hlimit =>
    have hlt := Program.lt_length_of_fetch? hi
    have hsteps := hr.steps_le_pc hp (Nat.le_refl 0)
    obtain ⟨hsome, hle⟩ := Option.filter_eq_some_iff.1 hlimit
    have hfits := hl limit (hr.stepLimit_eq ▸ hsome)
    rw [hr.program_eq] at hlt
    have hle' := of_decide_eq_true hle
    simp only [start, countCycle] at hlt
    omega

/-- At every point of a cycle of an accepted program, in a memory of any size, the instructions
executed so far are at most as many as the program has, times one more than the jumps back so far. If
all jumps lead forward and no step limit cuts the cycle before that many instructions, then the cycle
ends by itself, and at the end marker if that stands last. -/
theorem cycle_bounded_by_jumps_back (ha : m.program.Accepted) :
    (∀ budget, let passed := m.start.course budget
      passed.countP Scan.executes ≤ m.program.length * (1 + passed.countP Scan.jumpsBack) ∧
        (m.cycle budget = none → passed.countP Scan.executes = budget) ∧
        ∀ e, m.cycle budget = some e → e.machine.statistics.instructions =
          m.statistics.instructions + passed.countP Scan.executes) ∧
    (m.program.JumpsForward →
      (∀ limit, m.stepLimit = some limit → m.program.length ≤ limit) →
      ∃ e, m.cycle (m.program.length + 1) = some e ∧
        e.machine.statistics.instructions ≤ m.statistics.instructions + m.program.length ∧
        (∀ n, e.outcome ≠ .stepLimitReached n) ∧
        ((∃ i, m.program.fetch? (m.program.length - 1) = some i ∧ i.decode = .endOfProgram) →
          e.outcome = .completed)) := by
  have hbound (budget : Nat) := Scan.countP_executes_course_le budget m.start (Nat.zero_le _)
  refine ⟨fun budget => ⟨hbound budget, Scan.countP_executes_of_run_eq_none, ?_⟩, ?_⟩
  · intro e he
    exact instructions_of_cycle he
  · intro hp hl
    have hle := hbound (m.program.length + 1)
    rw [Scan.countP_jumpsBack_eq_zero _ m.start hp, Nat.add_zero, Nat.mul_one] at hle
    cases hc : m.cycle (m.program.length + 1) with
    | none =>
      rw [Scan.countP_executes_of_run_eq_none hc] at hle
      exact absurd hle (Nat.not_succ_le_self _)
    | some e =>
      have hout := outcome_ne_stepLimitReached hp hl hc
      have hreg := regular_of_cycle ha hc
      refine ⟨e, rfl, ?_, hout, ?_⟩
      · rw [instructions_of_cycle hc]
        exact Nat.add_le_add_left hle _
      · rintro ⟨i, hi, hend⟩
        cases ho : e.outcome with
        | completed => rfl
        | stepLimitReached n => exact absurd ho (hout n)
        | invalidJump pc target => exact absurd ho (hreg.outcome_ne_invalidJump pc target)
        | ranPastEnd =>
          obtain ⟨-, j, hj, hne⟩ := hreg.ranPastEnd ho
          rw [program_eq_of_cycle hc, hi] at hj
          exact absurd (Option.some.inj hj ▸ hend) hne

/-- A loop that never ends, after eight instructions and four jumps back, and a program that jumps
forward only, in a memory without any cells and with a limit that leaves just enough steps. -/
theorem cycle_bounded_by_jumps_back_four :
    let loop : Machine :=
      { program := ⟨#[.increment 0, .jump 0, .endOfProgram]⟩, memory := .zero 0 1 }
    let forward : Machine :=
      { program := ⟨#[.ifBitSet 9 2, .increment 0, .endOfProgram]⟩, memory := .zero 0 0
        stepLimit := some 3 }
    (loop.cycle 8 = none ∧ 8 ≤ 3 * (1 + (loop.start.course 8).countP Scan.jumpsBack)) ∧
      ∃ e, forward.cycle 4 = some e ∧ e.machine.statistics.instructions ≤ 3 ∧
        e.outcome = .completed := by
  intro loop forward
  have hloop : loop.program.Accepted := ⟨⟨0, 1, 3⟩, loop.program.instructions.toList, by decide⟩
  have hforward : forward.program.Accepted :=
    ⟨⟨10, 1, 3⟩, forward.program.instructions.toList, by decide⟩
  have hnone : loop.cycle 8 = none := by decide
  obtain ⟨hle, hcount, -⟩ := (cycle_bounded_by_jumps_back hloop).1 8
  rw [hcount hnone] at hle
  have hlimit : ∀ limit, forward.stepLimit = some limit → forward.program.length ≤ limit := by
    intro limit h
    cases h
    decide
  obtain ⟨e, he, hi, -, hend⟩ := (cycle_bounded_by_jumps_back hforward).2 (by decide) hlimit
  exact ⟨⟨hnone, hle⟩, e, he, hi, hend ⟨.endOfProgram, rfl, rfl⟩⟩

end Machine

end LadderMachine
