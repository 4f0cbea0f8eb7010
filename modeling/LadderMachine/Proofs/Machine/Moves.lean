import LadderMachine.Machine
import LadderMachine.Proofs.Machine.Execution

/-!
# The course of a cycle

`Scan.Moves` lists the ways in which a cycle goes on from a point, with everything that changes, and
`moves_step` says that the machine takes one of them. What an instruction does depends on neither
tracing nor the step limit (`noted_mapSettings`). A cycle passes the points that its start `Reaches`;
if it ends, it does so in one move from one of these.
-/

namespace LadderMachine

/-- The event that reports an anomaly at an address. -/
def Anomaly.event (pc : Nat) : Anomaly → Event
  | divisionByZero divisor => .divisionByZero pc divisor
  | unsupported code => .unsupportedSkipped pc code
  | operandOutside => .operandOutside pc

namespace Machine

variable (m : Machine) (pc : Nat) (event : Event) (anomaly : Option Anomaly)

@[simp] theorem program_warnOnce : (m.warnOnce pc event).value.program = m.program := by
  unfold warnOnce
  split <;> rfl

@[simp] theorem memory_warnOnce : (m.warnOnce pc event).value.memory = m.memory := by
  unfold warnOnce
  split <;> rfl

@[simp] theorem statistics_warnOnce : (m.warnOnce pc event).value.statistics = m.statistics := by
  unfold warnOnce
  split <;> rfl

@[simp] theorem stepLimit_warnOnce : (m.warnOnce pc event).value.stepLimit = m.stepLimit := by
  unfold warnOnce
  split <;> rfl

@[simp] theorem program_note : (m.note pc anomaly).value.program = m.program := by
  rcases anomaly with _ | _ | _ | _ <;>
    simp [note, countDivisionByZero, countUnsupported, countAddressFault]

@[simp] theorem memory_note : (m.note pc anomaly).value.memory = m.memory := by
  rcases anomaly with _ | _ | _ | _ <;>
    simp [note, countDivisionByZero, countUnsupported, countAddressFault]

@[simp] theorem stepLimit_note : (m.note pc anomaly).value.stepLimit = m.stepLimit := by
  rcases anomaly with _ | _ | _ | _ <;>
    simp [note, countDivisionByZero, countUnsupported, countAddressFault]

@[simp] theorem tracing_warnOnce : (m.warnOnce pc event).value.tracing = m.tracing := by
  unfold warnOnce
  split <;> rfl

@[simp] theorem tracing_note : (m.note pc anomaly).value.tracing = m.tracing := by
  rcases anomaly with _ | _ | _ | _ <;>
    simp [note, countDivisionByZero, countUnsupported, countAddressFault]

theorem addressFaults_note (h : anomaly ≠ some .operandOutside) :
    (m.note pc anomaly).value.statistics.addressFaults = m.statistics.addressFaults := by
  rcases anomaly with _ | _ | _ | _
  · rfl
  · rfl
  · simp [note, countUnsupported]
  · exact absurd rfl h

theorem eq_of_mem_warnOnce {report : Event} (h : report ∈ (m.warnOnce pc event).events) :
    report = event := by
  unfold warnOnce at h
  split at h
  · exact List.mem_singleton.1 h
  · exact absurd h List.not_mem_nil

/-- All that is reported of an anomaly is the anomaly itself. -/
theorem exists_of_mem_note (h : event ∈ (m.note pc anomaly).events) :
    ∃ a, anomaly = some a ∧ event = a.event pc := by
  rcases anomaly with _ | a
  · exact absurd h List.not_mem_nil
  · refine ⟨a, rfl, ?_⟩
    cases a with
    | divisionByZero => exact List.mem_singleton.1 h
    | unsupported | operandOutside => exact eq_of_mem_warnOnce _ pc _ h

/-- Changes settings of the machine, nothing that an instruction reads or writes. -/
def mapSettings (f : Bool → Bool) (g : Option Nat → Option Nat) (m : Machine) : Machine :=
  { m with tracing := f m.tracing, stepLimit := g m.stepLimit }

variable (f : Bool → Bool) (g : Option Nat → Option Nat)

theorem warnOnce_mapSettings :
    (m.mapSettings f g).warnOnce pc event = (m.warnOnce pc event).map (mapSettings f g) := by
  unfold warnOnce mapSettings
  split <;> rfl

/-- Noting an anomaly does not depend on the settings. -/
theorem note_mapSettings :
    (m.mapSettings f g).note pc anomaly = (m.note pc anomaly).map (mapSettings f g) := by
  rcases anomaly with _ | a
  · rfl
  · cases a with
    | divisionByZero => rfl
    | unsupported => exact warnOnce_mapSettings m.countUnsupported pc _ f g
    | operandOutside => exact warnOnce_mapSettings m.countAddressFault pc _ f g

end Machine

/-- The machine in which a cycle goes on or has ended. -/
def Progress.machine : Progress → Machine
  | .running s => s.machine
  | .ended _ m => m

namespace Scan

variable {s t u : Scan} {i : Instruction} {p : Progress} {events : List Event}

def effect (s : Scan) (i : Instruction) : Effect := i.decode.execute s.machine.memory

/-- The machine after an instruction at the scan's address, before control goes on. -/
def noted (s : Scan) (i : Instruction) : Logged Machine :=
  { s.machine.countInstruction with memory := (s.effect i).memory }.note s.pc (s.effect i).anomaly

def reports (s : Scan) (i : Instruction) : List Event :=
  s.machine.traceOf s.pc i ++ (s.noted i).events

theorem of_mem_reports {event : Event} (h : event ∈ s.reports i) :
    event = .executing s.pc i ∨ ∃ a : Anomaly, event = a.event s.pc := by
  rcases List.mem_append.1 h with h | h
  · unfold Machine.traceOf at h
    split at h
    · exact .inl (List.mem_singleton.1 h)
    · exact absurd h List.not_mem_nil
  · obtain ⟨a, -, he⟩ := Machine.exists_of_mem_note _ _ _ _ h
    exact .inr ⟨a, he⟩

/-- The ways in which a cycle goes on from a point. -/
inductive Moves (s : Scan) : Progress → List Event → Prop
  | pastEnd (hi : s.machine.program.fetch? s.pc = none) :
    Moves s (.ended .ranPastEnd s.machine.countRanPastEnd) [.ranPastEnd s.pc]
  | limit {i : Instruction} {limit : Nat} (hi : s.machine.program.fetch? s.pc = some i)
      (hl : s.machine.reachedLimit? s.steps = some limit) :
    Moves s (.ended (.stepLimitReached s.steps) s.machine.countStepLimit)
      [.stepLimitReached limit s.pc]
  | next {i : Instruction} (hi : s.machine.program.fetch? s.pc = some i)
      (hl : s.machine.reachedLimit? s.steps = none) (hf : (s.effect i).flow = .next) :
    Moves s (.running ⟨(s.noted i).value, s.pc + 1, s.steps + 1⟩) (s.reports i)
  | jump {i : Instruction} {target : Int16} {next : Nat}
      (hi : s.machine.program.fetch? s.pc = some i)
      (hl : s.machine.reachedLimit? s.steps = none) (hf : (s.effect i).flow = .jump target)
      (ht : operandAddress? target = some next) (hn : next < s.machine.program.length) :
    Moves s (.running ⟨(s.noted i).value.countJump, next, s.steps + 1⟩) (s.reports i)
  | finish {i : Instruction} (hi : s.machine.program.fetch? s.pc = some i)
      (hl : s.machine.reachedLimit? s.steps = none) (hf : (s.effect i).flow = .finish) :
    Moves s (.ended .completed (s.noted i).value) (s.reports i)
  | astray {i : Instruction} {target : Int16} (hi : s.machine.program.fetch? s.pc = some i)
      (hl : s.machine.reachedLimit? s.steps = none) (hf : (s.effect i).flow = .jump target)
      (ht : operandFits target s.machine.program.length = false) :
    Moves s (.ended (.invalidJump s.pc target) (s.noted i).value.countAddressFault)
      (s.reports i ++ [.jumpOutside s.pc target])

@[simp] theorem program_noted : (s.noted i).value.program = s.machine.program := by
  simp [noted, Machine.countInstruction]

@[simp] theorem memory_noted : (s.noted i).value.memory = (s.effect i).memory := by
  simp [noted]

@[simp] theorem stepLimit_noted : (s.noted i).value.stepLimit = s.machine.stepLimit := by
  simp [noted, Machine.countInstruction]

@[simp] theorem tracing_noted : (s.noted i).value.tracing = s.machine.tracing := by
  simp [noted, Machine.countInstruction]

theorem noted_mapSettings (s : Scan) (f : Bool → Bool) (g : Option Nat → Option Nat)
    (i : Instruction) :
    ({ s with machine := s.machine.mapSettings f g } : Scan).noted i =
      (s.noted i).map (.mapSettings f g) :=
  Machine.note_mapSettings { s.machine.countInstruction with memory := (s.effect i).memory }
    s.pc _ f g

theorem perform_eq (s : Scan) (i : Instruction) :
    s.perform i = ⟨(s.follow (s.noted i).value (s.effect i).flow).value,
      s.reports i ++ (s.follow (s.noted i).value (s.effect i).flow).events⟩ := rfl

theorem moves_step (s : Scan) : s.Moves s.step.value s.step.events := by
  unfold step
  cases hi : s.machine.program.fetch? s.pc with
  | none => exact .pastEnd hi
  | some i =>
    cases hl : s.machine.reachedLimit? s.steps with
    | some limit => exact .limit hi hl
    | none =>
      simp only [perform_eq]
      cases hf : (s.effect i).flow with
      | next => simpa [follow] using Moves.next hi hl hf
      | finish => simpa [follow] using Moves.finish hi hl hf
      | jump target =>
        simp only [follow, program_noted]
        cases ht : (operandAddress? target).filter (· < s.machine.program.length) with
        | none =>
          refine .astray hi hl hf ?_
          rw [Bool.eq_false_iff, Ne, operandFits_iff]
          rintro ⟨n, hn, hlt⟩
          simp [hn] at ht
          omega
        | some next =>
          obtain ⟨hn, hlt⟩ := Option.filter_eq_some_iff.1 ht
          simpa using Moves.jump hi hl hf hn (of_decide_eq_true hlt)

/-- A point goes on in one way only. -/
theorem Moves.step_eq (h : s.Moves p events) : s.step = ⟨p, events⟩ := by
  cases h with
  | pastEnd hi => simp [step, hi]
  | limit hi hl => simp [step, hi, hl]
  | next hi hl hf | finish hi hl hf => simp [step, hi, hl, perform_eq, hf, follow]
  | @jump i target next hi hl hf ht hn =>
    have hsome : (operandAddress? target).filter (· < s.machine.program.length) = some next :=
      Option.filter_eq_some_iff.2 ⟨ht, decide_eq_true hn⟩
    simp [step, hi, hl, perform_eq, hf, follow, hsome]
  | @astray i target hi hl hf ht =>
    have hnone : (operandAddress? target).filter (· < s.machine.program.length) = none := by
      rw [Option.filter_eq_none_iff]
      intro n hn hlt
      exact Bool.eq_false_iff.1 ht ((operandFits_iff _ _).2 ⟨n, hn, of_decide_eq_true hlt⟩)
    simp [step, hi, hl, perform_eq, hf, follow, hnone]

/-- From a point a cycle ends or goes on. -/
theorem moves_cases {motive : Scan → Prop}
    (ended : ∀ {s : Scan} (outcome : Outcome) (m : Machine) (events : List Event),
      s.Moves (.ended outcome m) events → motive s)
    (running : ∀ {s : Scan} (next : Scan) (events : List Event),
      s.Moves (.running next) events → motive s) (s : Scan) : motive s := by
  have hm := moves_step s
  cases hs : s.step with
  | mk progress events =>
    rw [hs] at hm
    cases progress with
    | ended outcome m => exact ended outcome m events hm
    | running next => exact running next events hm

theorem Moves.program_eq (h : s.Moves p events) : p.machine.program = s.machine.program := by
  cases h <;> simp [Progress.machine, Machine.countJump, Machine.countRanPastEnd,
    Machine.countStepLimit, Machine.countAddressFault]

theorem Moves.stepLimit_eq (h : s.Moves p events) :
    p.machine.stepLimit = s.machine.stepLimit := by
  cases h <;> simp [Progress.machine, Machine.countJump, Machine.countRanPastEnd,
    Machine.countStepLimit, Machine.countAddressFault]

theorem Moves.tracing_eq (h : s.Moves p events) : p.machine.tracing = s.machine.tracing := by
  cases h <;> simp [Progress.machine, Machine.countJump, Machine.countRanPastEnd,
    Machine.countStepLimit, Machine.countAddressFault]

theorem Moves.capacity_eq (h : s.Moves p events) (b : Bank) :
    p.machine.memory.capacity b = s.machine.memory.capacity b := by
  cases h <;> simp [Progress.machine, Machine.countJump, Machine.countRanPastEnd,
    Machine.countStepLimit, Machine.countAddressFault, effect, Operation.capacity_execute]

/-- Memory keeps its room for the program. -/
theorem Moves.acceptedWithin (h : s.Moves p events)
    (ha : s.machine.program.AcceptedWithin s.machine.memory.capacity) :
    p.machine.program.AcceptedWithin p.machine.memory.capacity := by
  have hc : p.machine.memory.capacity = s.machine.memory.capacity := funext h.capacity_eq
  rw [h.program_eq, hc]
  exact ha

/-- The points that a cycle passes from a given one on. -/
inductive Reaches (s : Scan) : Scan → Prop
  | refl : Reaches s s
  | step {t u : Scan} {events : List Event} (h : Reaches s t)
      (ht : t.step = ⟨.running u, events⟩) : Reaches s u

theorem Reaches.head (hs : s.step = ⟨.running t, events⟩) (h : t.Reaches u) : s.Reaches u := by
  induction h with
  | refl => exact .step .refl hs
  | step _ ht ih => exact .step ih ht

/-- A property of points that holds after each move from a point that has been passed holds at all
points that a cycle passes. -/
theorem Reaches.induct_reached {P : Scan → Prop} (h : s.Reaches t) (hs : P s)
    (step : ∀ {t u : Scan} {events : List Event},
      s.Reaches t → t.Moves (.running u) events → P t → P u) : P t := by
  induction h with
  | refl => exact hs
  | @step t u events h ht ih =>
    have hm := moves_step t
    rw [ht] at hm
    exact step h hm ih

theorem Reaches.induct {P : Scan → Prop} (h : s.Reaches t) (hs : P s)
    (step : ∀ {s t : Scan} {events : List Event}, s.Moves (.running t) events → P s → P t) :
    P t :=
  h.induct_reached hs fun _ hm => step hm

theorem Reaches.program_eq (h : s.Reaches t) : t.machine.program = s.machine.program :=
  h.induct (P := fun t => t.machine.program = s.machine.program) rfl
    fun hm ih => hm.program_eq.trans ih

theorem Reaches.stepLimit_eq (h : s.Reaches t) : t.machine.stepLimit = s.machine.stepLimit :=
  h.induct (P := fun t => t.machine.stepLimit = s.machine.stepLimit) rfl
    fun hm ih => hm.stepLimit_eq.trans ih

theorem Reaches.tracing_eq (h : s.Reaches t) : t.machine.tracing = s.machine.tracing :=
  h.induct (P := fun t => t.machine.tracing = s.machine.tracing) rfl
    fun hm ih => hm.tracing_eq.trans ih

theorem Reaches.capacity_eq (h : s.Reaches t) (b : Bank) :
    t.machine.memory.capacity b = s.machine.memory.capacity b :=
  h.induct (P := fun t => t.machine.memory.capacity b = s.machine.memory.capacity b) rfl
    fun hm ih => (hm.capacity_eq b).trans ih

/-- A run from the next point is preceded by the report of the move to it. -/
theorem run_eq_some_of_running {budget : Nat} {e : CycleEnd} (hs : s.step = ⟨.running t, events⟩)
    (h : t.run budget #[] = some e) :
    s.run (budget + 1) #[] = some { e with events := events ++ e.events } := by
  rw [run_succ_of_running hs, run_log, h]
  simp

/-- What holds of a last move, and of a run if it holds of the rest of it, holds of every run that
ends, with what has been reported before it. -/
theorem run_induct {P : Scan → List Event → CycleEnd → Prop}
    (ended : ∀ {s : Scan} {outcome : Outcome} {m : Machine} {log events : List Event},
      s.Moves (.ended outcome m) events → P s log ⟨outcome, m, log ++ events⟩)
    (running : ∀ {s t : Scan} {log events : List Event} {e : CycleEnd},
      s.Moves (.running t) events → P t (log ++ events) e → P s log e)
    {budget : Nat} {log : Array Event} {e : CycleEnd} (h : s.run budget log = some e) :
    P s log.toList e := by
  induction budget generalizing s log with
  | zero => exact absurd h (by simp [run])
  | succ budget ih =>
    cases s using moves_cases with
    | ended outcome m events hm =>
      rw [run_succ_of_ended hm.step_eq] at h
      cases h
      exact ended hm
    | running next events hm =>
      rw [run_succ_of_running hm.step_eq] at h
      have hrest := ih h
      rw [Array.toList_appendList] at hrest
      exact running hm hrest

/-- A cycle that ends does so in one move from a point that it has passed, and reports that move
last. -/
theorem exists_last_of_run {budget : Nat} {log : Array Event} {e : CycleEnd}
    (h : s.run budget log = some e) :
    ∃ t before events, s.Reaches t ∧ t.Moves (.ended e.outcome e.machine) events ∧
      e.events = before ++ events := by
  refine run_induct (P := fun s _ e => ∃ t before events, s.Reaches t ∧
    t.Moves (.ended e.outcome e.machine) events ∧ e.events = before ++ events) ?_ ?_ h
  · intro s _ _ log events hm
    exact ⟨s, log, events, .refl, hm, rfl⟩
  · rintro s _ _ _ _ hm ⟨t, before, last, hr, ht, he⟩
    exact ⟨t, before, last, hr.head hm.step_eq, ht, he⟩

end Scan

end LadderMachine
