import LadderMachine.Proofs.Machine.Counters

/-!
# The points of a cycle

`Scan.course` lists the points that a cycle passes, the one at which it ends included. At each point at
most one instruction is executed, so what the course says point by point adds up to what the cycle has
reported and counted.
-/

namespace LadderMachine

namespace Scan

/-- The instruction that is executed at a point: none past the end of the program, and none once the
step limit has been reached. -/
def instruction? (s : Scan) : Option Instruction :=
  match s.machine.reachedLimit? s.steps with
  | some _ => none
  | none => s.machine.program.fetch? s.pc

def executes (s : Scan) : Bool := s.instruction?.isSome

def anomaly? (s : Scan) : Option Anomaly := s.instruction?.bind fun i => (s.effect i).anomaly

/-- The first points that a cycle passes, at most so many. -/
def course : Nat → Scan → List Scan
  | 0, _ => []
  | budget + 1, s =>
    s :: match s.step.value with
      | .running next => next.course budget
      | .ended _ _ => []

variable {s t : Scan} {i : Instruction} {p : Progress} {events : List Event} {budget : Nat}
  {e : CycleEnd}

theorem instruction?_of_pastEnd (hi : s.machine.program.fetch? s.pc = none) :
    s.instruction? = none := by
  rw [instruction?, hi]
  cases s.machine.reachedLimit? s.steps <;> rfl

theorem instruction?_of_limit {limit : Nat} (hl : s.machine.reachedLimit? s.steps = some limit) :
    s.instruction? = none := by
  rw [instruction?, hl]

theorem instruction?_of_fetch (hi : s.machine.program.fetch? s.pc = some i)
    (hl : s.machine.reachedLimit? s.steps = none) : s.instruction? = some i := by
  rw [instruction?, hl, hi]

theorem fetch?_of_instruction? (h : s.instruction? = some i) :
    s.machine.program.fetch? s.pc = some i ∧ s.machine.reachedLimit? s.steps = none := by
  rw [instruction?] at h
  split at h
  · exact absurd h (by simp)
  · exact ⟨h, ‹_›⟩

theorem anomaly?_of_fetch (hi : s.machine.program.fetch? s.pc = some i)
    (hl : s.machine.reachedLimit? s.steps = none) : s.anomaly? = (s.effect i).anomaly := by
  rw [anomaly?, instruction?_of_fetch hi hl]
  rfl

theorem Moves.events_eq (h : s.Moves p events) : s.step.events = events := by
  rw [h.step_eq]

theorem Moves.course_of_running (h : s.Moves (.running t) events) (budget : Nat) :
    s.course (budget + 1) = s :: t.course budget := by
  rw [course, h.step_eq]

theorem Moves.course_of_ended {outcome : Outcome} {m : Machine}
    (h : s.Moves (.ended outcome m) events) (budget : Nat) : s.course (budget + 1) = [s] := by
  rw [course, h.step_eq]

theorem reaches_of_mem_course (h : t ∈ s.course budget) : s.Reaches t := by
  induction budget generalizing s with
  | zero => exact absurd h List.not_mem_nil
  | succ budget ih =>
    cases s using moves_cases with
    | ended outcome m events hm =>
      rw [hm.course_of_ended] at h
      rw [List.mem_singleton.1 h]
      exact .refl
    | running next events hm =>
      rw [hm.course_of_running] at h
      rcases List.mem_cons.1 h with rfl | h
      · exact .refl
      · exact (ih h).head hm.step_eq

/-- What holds of a last move, and of a run and its course if it holds of the rest of them, holds of
every run that ends. -/
theorem course_induct {P : Scan → List Scan → CycleEnd → Prop}
    (ended : ∀ {s : Scan} {outcome : Outcome} {m : Machine} {events : List Event},
      s.Moves (.ended outcome m) events → P s [s] ⟨outcome, m, events⟩)
    (running : ∀ {s t : Scan} {points : List Scan} {events : List Event} {e : CycleEnd},
      s.Moves (.running t) events → P t points e →
        P s (s :: points) { e with events := events ++ e.events })
    (h : s.run budget #[] = some e) : P s (s.course budget) e := by
  induction budget generalizing s e with
  | zero => exact absurd h (by simp [run])
  | succ budget ih =>
    cases s using moves_cases with
    | ended outcome m events hm =>
      rw [run_succ_of_ended hm.step_eq] at h
      cases h
      rw [hm.course_of_ended]
      exact ended hm
    | running next events hm =>
      rw [run_succ_of_running hm.step_eq, run_log] at h
      obtain ⟨e', he', rfl⟩ := Option.map_eq_some_iff.1 h
      rw [hm.course_of_running]
      simpa using running hm (ih he')

theorem events_of_run (h : s.run budget #[] = some e) :
    e.events = (s.course budget).flatMap (·.step.events) := by
  refine course_induct (P := fun _ points e => e.events = points.flatMap (·.step.events)) ?_ ?_ h
  · intro s outcome m events hm
    simp [hm.events_eq]
  · intro s t points events e hm ih
    simp [hm.events_eq, ih]

/-- A counter that grows by one at certain points has grown by the number of these. -/
theorem counter_of_run (counter : Statistics → Nat) {counts : Scan → Bool} (p : Program)
    (step : ∀ {s : Scan} {q : Progress} {events : List Event}, s.machine.program = p →
      s.Moves q events →
      counter q.machine.statistics = counter s.machine.statistics + if counts s then 1 else 0)
    (hp : s.machine.program = p) (h : s.run budget #[] = some e) :
    counter e.machine.statistics =
      counter s.machine.statistics + (s.course budget).countP counts := by
  refine course_induct (P := fun s points e => s.machine.program = p →
    counter e.machine.statistics = counter s.machine.statistics + points.countP counts) ?_ ?_ h hp
  · intro s outcome m events hm hp
    rw [List.countP_singleton]
    exact step hp hm
  · intro s t points events e hm ih hp
    have hone : counter t.machine.statistics = _ := step hp hm
    have hrest := ih (hm.program_eq.trans hp)
    rw [hone] at hrest
    rw [List.countP_cons, hrest]
    omega

theorem Moves.instructions_executed (h : s.Moves p events) :
    p.machine.statistics.instructions =
      s.machine.statistics.instructions + if s.executes then 1 else 0 := by
  cases h with
  | pastEnd hi => simp [executes, instruction?_of_pastEnd hi, Progress.machine, Machine.countRanPastEnd]
  | limit hi hl => simp [executes, instruction?_of_limit hl, Progress.machine, Machine.countStepLimit]
  | next hi hl | jump hi hl | finish hi hl | astray hi hl =>
    rw [executes, instruction?_of_fetch hi hl]
    exact instructions_noted s _

end Scan

theorem Machine.instructions_of_cycle {m : Machine} {budget : Nat} {e : CycleEnd}
    (h : m.cycle budget = some e) : e.machine.statistics.instructions =
      m.statistics.instructions + (m.start.course budget).countP Scan.executes :=
  Scan.counter_of_run (·.instructions) m.program (fun _ hm => hm.instructions_executed) rfl h

end LadderMachine
