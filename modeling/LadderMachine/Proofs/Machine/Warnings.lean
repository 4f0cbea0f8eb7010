import LadderMachine.Simulator
import LadderMachine.Proofs.Machine.Course
import LadderMachine.Proofs.Machine.Safety

/-!
# Each address warns once

`firstWarning?` is the warning due for an address when points have been passed, said without the flags
of the machine. A machine `Remembers` the points since its program came in: its flags tell for which
addresses a warning has been due. So the log of a `Span`, cycles and writes of the host that follow one
another, holds the first warning for each address and no other one.
-/

namespace LadderMachine

/-- The warning due for an anomaly at an address; for a division by zero there is none. -/
def Anomaly.warning? (pc : Nat) : Anomaly → Option Event
  | .divisionByZero _ => none
  | .unsupported code => some (.unsupportedSkipped pc code)
  | .operandOutside => some (.operandOutside pc)

def Event.warnedAddress? : Event → Option Nat
  | .unsupportedSkipped pc _ => some pc
  | .operandOutside pc => some pc
  | _ => none

def warningsOf (pc : Nat) (events : List Event) : List Event :=
  events.filter (·.warnedAddress? = some pc)

namespace Scan

def warning? (s : Scan) : Option Event := s.anomaly?.bind (·.warning? s.pc)

def warningOf? (pc : Nat) (s : Scan) : Option Event := if s.pc = pc then s.warning? else none

def isUnsupported (s : Scan) : Bool :=
  match s.anomaly? with
  | some (.unsupported _) => true
  | _ => false

def missesMemory (s : Scan) : Bool := s.anomaly? = some .operandOutside

end Scan

/-- The first warning due for an address at these points. -/
def firstWarning? (points : List Scan) (pc : Nat) : Option Event :=
  points.findSome? (·.warningOf? pc)

@[simp] theorem warningsOf_nil (pc : Nat) : warningsOf pc [] = [] := rfl

@[simp] theorem warningsOf_append (pc : Nat) (events more : List Event) :
    warningsOf pc (events ++ more) = warningsOf pc events ++ warningsOf pc more :=
  List.filter_append ..

@[simp] theorem firstWarning?_nil (pc : Nat) : firstWarning? [] pc = none := rfl

theorem firstWarning?_concat (points : List Scan) (s : Scan) (pc : Nat) :
    firstWarning? (points ++ [s]) pc = (firstWarning? points pc).or (s.warningOf? pc) := by
  simp [firstWarning?, List.findSome?_append]

namespace Machine

variable {m n : Machine} {earlier : List Scan} (pc : Nat) (event : Event)
  (anomaly : Option Anomaly)

/-- There is one flag for each address, set where a warning has been due at one of these points. -/
structure Remembers (m : Machine) (earlier : List Scan) : Prop where
  size_eq : m.reported.size = m.program.length
  flag_eq {pc : Nat} (h : pc < m.program.length) :
    m.reported[pc]? = some (firstWarning? earlier pc).isSome

theorem Remembers.congr (h : m.Remembers earlier) (hr : n.reported = m.reported)
    (hp : n.program = m.program) : n.Remembers earlier where
  size_eq := by rw [hr, hp, h.size_eq]
  flag_eq hlt := by
    rw [hr]
    exact h.flag_eq (hp ▸ hlt)

theorem reported_warnOnce :
    (m.warnOnce pc event).value.reported = m.reported.setIfInBounds pc true := by
  unfold warnOnce
  split
  · rfl
  · next hset =>
    apply Array.ext_getElem?
    intro k
    rw [Array.getElem?_setIfInBounds]
    by_cases hk : pc = k
    · subst hk
      rw [if_pos rfl]
      by_cases hlt : pc < m.reported.size
      · rw [if_pos hlt, Array.getElem?_eq_getElem hlt] at *
        simpa using hset
      · rw [if_neg hlt, Array.getElem?_eq_none (Nat.not_lt.1 hlt)]
    · rw [if_neg hk]

/-- A flag is set whenever a warning is due, whether it is given or has been given before. -/
theorem reported_note :
    (m.note pc anomaly).value.reported =
      if (anomaly.bind (·.warning? pc)).isSome then m.reported.setIfInBounds pc true
      else m.reported := by
  rcases anomaly with _ | a
  · rfl
  · cases a with
    | divisionByZero => rfl
    | unsupported => exact reported_warnOnce pc _
    | operandOutside => exact reported_warnOnce pc _

theorem warningsOf_warnOnce (h : event.warnedAddress? = some pc) (address : Nat) :
    warningsOf address (m.warnOnce pc event).events =
      if m.reported[pc]? = some false ∧ pc = address then [event] else [] := by
  unfold warnOnce
  by_cases hr : m.reported[pc]? = some false
  · by_cases hpc : pc = address
    · subst hpc
      simp [warningsOf, h, hr]
    · simp [warningsOf, h, hr, hpc]
  · simp [hr]

theorem warningsOf_note (address : Nat) :
    warningsOf address (m.note pc anomaly).events =
      if m.reported[pc]? = some false ∧ pc = address then (anomaly.bind (·.warning? pc)).toList
      else [] := by
  rcases anomaly with _ | a
  · simp [note]
  · cases a with
    | divisionByZero => simp [note, warningsOf, Event.warnedAddress?, Anomaly.warning?]
    | unsupported => exact warningsOf_warnOnce pc _ rfl address
    | operandOutside => exact warningsOf_warnOnce pc _ rfl address

theorem warningsOf_traceOf (i : Instruction) (address : Nat) :
    warningsOf address (m.traceOf pc i) = [] := by
  unfold traceOf
  split <;> simp [warningsOf, Event.warnedAddress?]

end Machine

namespace Scan

variable {s t : Scan} {i : Instruction} {p : Progress} {events : List Event}
  {earlier points : List Scan} {budget : Nat} {e : CycleEnd}

theorem warning?_of_none (h : s.instruction? = none) : s.warning? = none := by
  rw [warning?, anomaly?, h]
  rfl

theorem warning?_of_fetch (hi : s.machine.program.fetch? s.pc = some i)
    (hl : s.machine.reachedLimit? s.steps = none) :
    s.warning? = (s.effect i).anomaly.bind (·.warning? s.pc) := by
  rw [warning?, anomaly?_of_fetch hi hl]

theorem remembers_of_none (h : s.machine.Remembers earlier) (hw : s.warning? = none) :
    s.machine.Remembers (earlier ++ [s]) where
  size_eq := h.size_eq
  flag_eq hlt := by
    rw [h.flag_eq hlt, firstWarning?_concat, warningOf?, hw, ite_self, Option.or_none]

theorem remembers_noted (h : s.machine.Remembers earlier)
    (hi : s.machine.program.fetch? s.pc = some i)
    (hl : s.machine.reachedLimit? s.steps = none) :
    (s.noted i).value.Remembers (earlier ++ [s]) := by
  have hreported : (s.noted i).value.reported =
      if s.warning?.isSome then s.machine.reported.setIfInBounds s.pc true
      else s.machine.reported := by
    rw [warning?_of_fetch hi hl]
    exact Machine.reported_note _ _
  constructor
  · rw [hreported, program_noted, ← h.size_eq]
    split <;> simp
  · intro pc hlt
    rw [program_noted] at hlt
    have hflag := h.flag_eq hlt
    have hsize : pc < s.machine.reported.size := h.size_eq ▸ hlt
    rw [hreported, firstWarning?_concat, warningOf?, Option.isSome_or]
    cases hw : s.warning? with
    | none => simpa using hflag
    | some w =>
      by_cases hpc : s.pc = pc
      · simp [hpc, hsize]
      · simpa [hpc] using hflag

/-- A machine that remembers the points before remembers this one too when it goes on. -/
theorem Moves.remembers (hm : s.Moves p events) (h : s.machine.Remembers earlier) :
    p.machine.Remembers (earlier ++ [s]) := by
  cases hm with
  | pastEnd hi =>
    have hw := warning?_of_none (instruction?_of_pastEnd hi)
    exact (remembers_of_none h hw).congr rfl rfl
  | limit hi hl =>
    have hw := warning?_of_none (instruction?_of_limit hl)
    exact (remembers_of_none h hw).congr rfl rfl
  | next hi hl | finish hi hl => exact remembers_noted h hi hl
  | jump hi hl | astray hi hl => exact (remembers_noted h hi hl).congr rfl rfl

theorem warningsOf_reports (h : s.machine.Remembers earlier)
    (hi : s.machine.program.fetch? s.pc = some i)
    (hl : s.machine.reachedLimit? s.steps = none) (pc : Nat) :
    warningsOf pc (s.reports i) =
      if (firstWarning? earlier pc).isSome then [] else (s.warningOf? pc).toList := by
  have hflag := h.flag_eq (Program.lt_length_of_fetch? hi)
  rw [reports, warningsOf_append, Machine.warningsOf_traceOf, List.nil_append, noted,
    Machine.warningsOf_note, warningOf?, warning?_of_fetch hi hl]
  by_cases hpc : s.pc = pc
  · subst hpc
    rw [Machine.countInstruction, hflag]
    cases (firstWarning? earlier s.pc).isSome <;> simp
  · simp [hpc]

/-- The first warning due for an address is given where it is due; later ones are not given. -/
theorem Moves.warningsOf_eq (hm : s.Moves p events) (h : s.machine.Remembers earlier) (pc : Nat) :
    warningsOf pc events =
      if (firstWarning? earlier pc).isSome then [] else (s.warningOf? pc).toList := by
  cases hm with
  | pastEnd hi =>
    simp [warningsOf, Event.warnedAddress?, warningOf?,
      warning?_of_none (instruction?_of_pastEnd hi)]
  | limit hi hl =>
    simp [warningsOf, Event.warnedAddress?, warningOf?, warning?_of_none (instruction?_of_limit hl)]
  | next hi hl | jump hi hl | finish hi hl => exact warningsOf_reports h hi hl pc
  | astray hi hl =>
    rw [warningsOf_append, warningsOf_reports h hi hl pc]
    simp [warningsOf, Event.warnedAddress?]

/-- At each of the points the machine remembers the ones before. -/
def Recalls : List Scan → List Scan → Prop
  | _, [] => True
  | earlier, s :: points => s.machine.Remembers earlier ∧ Recalls (earlier ++ [s]) points

theorem recalls_append {more : List Scan} : Recalls earlier (points ++ more) ↔
    Recalls earlier points ∧ Recalls (earlier ++ points) more := by
  induction points generalizing earlier with
  | nil => simp [Recalls]
  | cons s points ih => simp [Recalls, ih, and_assoc]

theorem remembers_and_recalls_of_run (h : s.run budget #[] = some e)
    (hs : s.machine.Remembers earlier) :
    e.machine.Remembers (earlier ++ s.course budget) ∧ Recalls earlier (s.course budget) := by
  refine course_induct (P := fun s points e => ∀ earlier, s.machine.Remembers earlier →
    e.machine.Remembers (earlier ++ points) ∧ Recalls earlier points) ?_ ?_ h earlier hs
  · intro s outcome m events hm earlier hs
    exact ⟨hm.remembers hs, hs, trivial⟩
  · intro s t points events e hm ih earlier hs
    obtain ⟨hend, hrecalls⟩ := ih _ (hm.remembers hs)
    rw [List.append_assoc] at hend
    exact ⟨hend, hs, hrecalls⟩

/-- What has been warned of so far and what is reported at further points make up what is due at all
of them. -/
theorem Recalls.warningsOf_eq (h : Recalls earlier points) (pc : Nat) :
    (firstWarning? earlier pc).toList ++ warningsOf pc (points.flatMap (·.step.events)) =
      (firstWarning? (earlier ++ points) pc).toList := by
  induction points generalizing earlier with
  | nil => simp
  | cons s points ih =>
    obtain ⟨hs, hrest⟩ := h
    have hone := (moves_step s).warningsOf_eq hs pc
    have hmore := ih hrest
    rw [List.append_assoc, List.singleton_append, firstWarning?_concat] at hmore
    rw [List.flatMap_cons, warningsOf_append, hone, ← hmore]
    cases firstWarning? earlier pc <;> simp

theorem Moves.anomalies_counted (hm : s.Moves p events)
    (hj : ∀ pc target m, p ≠ .ended (.invalidJump pc target) m) :
    p.machine.statistics.unsupportedOperations =
        s.machine.statistics.unsupportedOperations + (if s.isUnsupported then 1 else 0) ∧
      p.machine.statistics.addressFaults =
        s.machine.statistics.addressFaults + if s.missesMemory then 1 else 0 := by
  have hnoted {i : Instruction} (hi : s.machine.program.fetch? s.pc = some i)
      (hl : s.machine.reachedLimit? s.steps = none) :
      (s.noted i).value.statistics.unsupportedOperations =
          s.machine.statistics.unsupportedOperations + (if s.isUnsupported then 1 else 0) ∧
        (s.noted i).value.statistics.addressFaults =
          s.machine.statistics.addressFaults + if s.missesMemory then 1 else 0 := by
    rw [statistics_noted, isUnsupported, missesMemory, anomaly?_of_fetch hi hl, Effect.gain]
    rcases (s.effect i).anomaly with _ | a
    · exact ⟨rfl, rfl⟩
    · cases a <;> exact ⟨rfl, rfl⟩
  have hnone (h : s.instruction? = none) : s.isUnsupported = false ∧ s.missesMemory = false := by
    simp [isUnsupported, missesMemory, anomaly?, h]
  cases hm with
  | pastEnd hi =>
    obtain ⟨hu, hf⟩ := hnone (instruction?_of_pastEnd hi)
    rw [hu, hf]
    exact ⟨rfl, rfl⟩
  | limit hi hl =>
    obtain ⟨hu, hf⟩ := hnone (instruction?_of_limit hl)
    rw [hu, hf]
    exact ⟨rfl, rfl⟩
  | next hi hl | jump hi hl | finish hi hl => exact hnoted hi hl
  | astray => exact absurd rfl (hj _ _ _)

theorem isSome_warning?_iff :
    s.warning?.isSome = true ↔ s.isUnsupported = true ∨ s.missesMemory = true := by
  rw [warning?, isUnsupported, missesMemory]
  rcases s.anomaly? with _ | a
  · simp
  · cases a <;> simp [Anomaly.warning?]

end Scan

theorem isSome_firstWarning?_iff {points : List Scan} {pc : Nat} :
    (firstWarning? points pc).isSome = true ↔
      ∃ s ∈ points, s.pc = pc ∧ (s.isUnsupported = true ∨ s.missesMemory = true) := by
  rw [firstWarning?, List.findSome?_isSome_iff]
  constructor
  · rintro ⟨s, hs, hw⟩
    rw [Scan.warningOf?] at hw
    split at hw
    · next hpc => exact ⟨s, hs, hpc, Scan.isSome_warning?_iff.1 hw⟩
    · exact absurd hw (by simp)
  · rintro ⟨s, hs, hpc, hw⟩
    refine ⟨s, hs, ?_⟩
    rw [Scan.warningOf?, if_pos hpc]
    exact Scan.isSome_warning?_iff.2 hw

namespace Machine

variable {m m' : Machine} {points : List Scan} {log : List Event}

/-- The machine has just been built, or has just been given its program. -/
inductive Loaded : Machine → Prop
  | built (config : Config) (program : Program) (memory : Memory) :
    Loaded (.ofConfig config program memory)
  | replaced (m : Machine) (program : Program) : Loaded (m.replaceProgram program)

/-- Cycles that end and writes of the host, one after the other, with the points that the cycles pass
and what they report. -/
inductive Span (m : Machine) : List Scan → List Event → Machine → Prop
  | start : Span m [] [] m
  | cycle {points : List Scan} {log : List Event} {m' : Machine} {budget : Nat} {e : CycleEnd}
      (h : Span m points log m') (he : m'.cycle budget = some e) :
    Span m (points ++ m'.start.course budget) (log ++ e.events) e.machine
  | write {points : List Scan} {log : List Event} {m' : Machine} (h : Span m points log m')
      (w : HostWrite) : Span m points log { m' with memory := m'.memory.host w }

theorem Loaded.remembers (h : m.Loaded) : m.Remembers [] := by
  have hreported : m.reported = .replicate m.program.length false := by
    cases h <;> rfl
  constructor
  · rw [hreported, Array.size_replicate]
  · intro pc hlt
    rw [hreported, Array.getElem?_replicate, if_pos hlt]
    rfl

theorem Span.remembers (h : m.Span points log m') (hm : m.Remembers []) :
    m'.Remembers points ∧ Scan.Recalls [] points ∧ log = points.flatMap (·.step.events) := by
  induction h with
  | start => exact ⟨hm, trivial, rfl⟩
  | @cycle points log m' budget e h he ih =>
    obtain ⟨hr, hrecalls, hlog⟩ := ih
    have hstart : m'.start.machine.Remembers points := hr.congr rfl rfl
    obtain ⟨hend, hcourse⟩ := Scan.remembers_and_recalls_of_run he hstart
    refine ⟨hend, Scan.recalls_append.2 ⟨hrecalls, hcourse⟩, ?_⟩
    rw [List.flatMap_append, ← hlog, Scan.events_of_run he]
  | write h w ih =>
    obtain ⟨hr, hrecalls, hlog⟩ := ih
    exact ⟨hr.congr rfl rfl, hrecalls, hlog⟩

theorem Span.program_eq (h : m.Span points log m') : m'.program = m.program := by
  induction h with
  | start => rfl
  | cycle h he ih => exact (program_eq_of_cycle he).trans ih
  | write h w ih => exact ih

theorem Span.anomalies_counted (h : m.Span points log m') (ha : m.program.Accepted) :
    m'.statistics.unsupportedOperations =
        m.statistics.unsupportedOperations + points.countP Scan.isUnsupported ∧
      m'.statistics.addressFaults =
        m.statistics.addressFaults + points.countP Scan.missesMemory := by
  induction h with
  | start => exact ⟨rfl, rfl⟩
  | @cycle points log m' budget e h he ih =>
    obtain ⟨hu, hf⟩ := ih
    have hstep {s : Scan} {q : Progress} {events : List Event} (hp : s.machine.program = m.program)
        (hm : s.Moves q events) := hm.anomalies_counted (by
      rintro pc target n rfl
      exact hm.outcome_ne_invalidJump (hp ▸ ha) pc target rfl)
    have hu' := Scan.counter_of_run (·.unsupportedOperations) m.program
      (fun hp hm => (hstep hp hm).1) h.program_eq he
    have hf' := Scan.counter_of_run (·.addressFaults) m.program
      (fun hp hm => (hstep hp hm).2) h.program_eq he
    rw [List.countP_append, List.countP_append, hu', hf', ← Nat.add_assoc, ← Nat.add_assoc,
      ← hu, ← hf]
    exact ⟨rfl, rfl⟩
  | write h w ih => exact ih

/-- From the time a program comes in until the next one does, the log holds for each address one
warning if an instruction there was unsupported or missed memory, and none otherwise. The warning is
given at the first such point and at no later one, while the counters grow at each of them. There is a
flag for every address of the program all the time. -/
theorem span_warns_once (hm : m.Loaded) (ha : m.program.Accepted) (h : m.Span points log m') :
    (∀ pc, warningsOf pc log = (firstWarning? points pc).toList ∧
      ((firstWarning? points pc).isSome ↔
        ∃ s ∈ points, s.pc = pc ∧ (s.isUnsupported ∨ s.missesMemory))) ∧
    log = points.flatMap (·.step.events) ∧
    (∀ before s after, points = before ++ s :: after →
      s.machine.reported.size = s.machine.program.length ∧
        ∀ pc, warningsOf pc s.step.events =
          if (firstWarning? before pc).isSome then [] else (s.warningOf? pc).toList) ∧
    m'.statistics.unsupportedOperations =
      m.statistics.unsupportedOperations + points.countP Scan.isUnsupported ∧
    m'.statistics.addressFaults =
      m.statistics.addressFaults + points.countP Scan.missesMemory ∧
    m'.reported.size = m'.program.length := by
  obtain ⟨hend, hrecalls, hlog⟩ := h.remembers hm.remembers
  obtain ⟨hu, hf⟩ := h.anomalies_counted ha
  refine ⟨fun pc => ⟨?_, isSome_firstWarning?_iff⟩, hlog, ?_, hu, hf, hend.size_eq⟩
  · rw [hlog]
    exact hrecalls.warningsOf_eq pc
  · rintro before s after rfl
    have hs : s.machine.Remembers before := (Scan.recalls_append.1 hrecalls).2.1
    exact ⟨hs.size_eq, fun pc => (Scan.moves_step s).warningsOf_eq hs pc⟩

/-- A program that has replaced another one meets an unsupported code and an operand outside memory
twice in a cycle that the step limit cuts, and once more after a write of the host has opened the way
to its end. Three of each are counted, and each is warned of once. -/
theorem span_warns_once_replaced :
    let program : Program :=
      ⟨#[⟨30, 0, 0, 0, 0⟩, .increment 9, .ifBitSet 0 0, .endOfProgram]⟩
    let m : Machine := replaceProgram
      { program := ⟨#[.endOfProgram]⟩, memory := .zero 1 1, stepLimit := some 6 } program
    ∃ (e₁ e₂ : CycleEnd) (points : List Scan), m.Span points (e₁.events ++ e₂.events) e₂.machine ∧
      e₁.outcome = .stepLimitReached 6 ∧ e₂.outcome = .completed ∧
      warningsOf 0 (e₁.events ++ e₂.events) = [.unsupportedSkipped 0 30] ∧
      warningsOf 1 (e₁.events ++ e₂.events) = [.operandOutside 1] ∧
      e₂.machine.statistics.unsupportedOperations = 3 ∧
      e₂.machine.statistics.addressFaults = 3 := by
  intro program m
  have ha : m.program.Accepted := ⟨⟨1, 10, 4⟩, program.instructions.toList, by decide⟩
  let write (e : CycleEnd) : Machine :=
    { e.machine with memory := e.machine.memory.host (.bit 0 true) }
  let passed (e : CycleEnd) : List Scan := m.start.course 9 ++ (write e).start.course 9
  have hruns : ((m.cycle 9).bind fun e₁ => ((write e₁).cycle 9).map fun e₂ =>
      ((e₁.outcome, e₂.outcome), (firstWarning? (passed e₁) 0, firstWarning? (passed e₁) 1),
        (passed e₁).countP Scan.isUnsupported, (passed e₁).countP Scan.missesMemory)) =
      some ((.stepLimitReached 6, .completed),
        (some (.unsupportedSkipped 0 30), some (.operandOutside 1)), 3, 3) := by decide
  obtain ⟨e₁, h₁, hruns⟩ := Option.bind_eq_some_iff.1 hruns
  obtain ⟨e₂, h₂, hends⟩ := Option.map_eq_some_iff.1 hruns
  obtain ⟨ho, hends⟩ := Prod.mk.inj hends
  obtain ⟨hw, hc⟩ := Prod.mk.inj hends
  obtain ⟨ho₁, ho₂⟩ := Prod.mk.inj ho
  obtain ⟨hw₀, hw₁⟩ := Prod.mk.inj hw
  obtain ⟨hu, hf⟩ := Prod.mk.inj hc
  have hspan : m.Span (passed e₁) (e₁.events ++ e₂.events) e₂.machine :=
    .cycle (.write (.cycle .start h₁) (.bit 0 true)) h₂
  obtain ⟨hwarn, -, -, hu', hf', -⟩ := span_warns_once (.replaced _ _) ha hspan
  refine ⟨e₁, e₂, passed e₁, hspan, ho₁, ho₂, ?_, ?_, ?_, ?_⟩
  · rw [(hwarn 0).1, hw₀]
    rfl
  · rw [(hwarn 1).1, hw₁]
    rfl
  · rw [hu', hu]
    rfl
  · rw [hf', hf]
    rfl

end Machine

end LadderMachine
