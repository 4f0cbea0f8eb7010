import LadderMachine.Proofs.Machine.Course
import LadderMachine.Proofs.Machine.Runs

/-!
# Tracing

A machine that traces reports each instruction before it is executed. Without these reports its log
is the log of the machine that does not trace, and neither outcomes nor machines differ beside the
setting (`ends_untraced`). The reports themselves list the instructions executed at the points that
the cycles pass. Each division by zero and each end of a cycle that is counted is reported as well,
so the log of any machine agrees with its counters.
-/

namespace LadderMachine

namespace Event

/-- The report of an instruction that is about to be executed. -/
def isTrace : Event → Bool
  | executing _ _ => true
  | _ => false

def isDivisionByZero : Event → Bool
  | divisionByZero _ _ => true
  | _ => false

def isRanPastEnd : Event → Bool
  | ranPastEnd _ => true
  | _ => false

def isStepLimitReached : Event → Bool
  | stepLimitReached _ _ => true
  | _ => false

end Event

def withoutTraces (events : List Event) : List Event := events.filter (!·.isTrace)

def Machine.withTracing (m : Machine) (tracing : Bool) : Machine := { m with tracing }

/-- The same end without traces, of a machine that does not trace. -/
def CycleEnd.untraced (e : CycleEnd) : CycleEnd :=
  { e with machine := e.machine.withTracing false, events := withoutTraces e.events }

def Progress.untraced : Progress → Progress
  | .running s => .running { s with machine := s.machine.withTracing false }
  | .ended outcome m => .ended outcome (m.withTracing false)

@[simp] theorem withoutTraces_append (events more : List Event) :
    withoutTraces (events ++ more) = withoutTraces events ++ withoutTraces more :=
  List.filter_append ..

/-- None of these events is a trace. -/
def TraceFree (events : List Event) : Prop := ∀ event ∈ events, event.isTrace = false

theorem traceFree_singleton {event : Event} (h : event.isTrace = false) : TraceFree [event] := by
  intro _ he
  rwa [List.mem_singleton.1 he]

theorem TraceFree.append {events more : List Event} (h : TraceFree events) (h' : TraceFree more) :
    TraceFree (events ++ more) := by
  intro event he
  exact (List.mem_append.1 he).elim (h event) (h' event)

theorem TraceFree.withoutTraces_eq {events : List Event} (h : TraceFree events) :
    withoutTraces events = events := by
  rw [withoutTraces, List.filter_eq_self]
  intro event he
  rw [h event he]
  rfl

theorem TraceFree.filter_eq {events : List Event} (h : TraceFree events) :
    events.filter Event.isTrace = [] := by
  rw [List.filter_eq_nil_iff]
  intro event he
  rw [h event he]
  exact Bool.false_ne_true

/-- Divisions by zero and ends of a cycle are reported as often as they are counted in between. -/
structure Statistics.CountedBy (before after : Statistics) (events : List Event) : Prop where
  divisionsByZero :
    after.divisionsByZero = before.divisionsByZero + events.countP Event.isDivisionByZero
  ranPastEnd : after.ranPastEnd = before.ranPastEnd + events.countP Event.isRanPastEnd
  stepLimitTrips :
    after.stepLimitTrips = before.stepLimitTrips + events.countP Event.isStepLimitReached

theorem Statistics.CountedBy.trans {r s t : Statistics} {events more : List Event}
    (h : r.CountedBy s events) (h' : s.CountedBy t more) : r.CountedBy t (events ++ more) where
  divisionsByZero := by
    rw [List.countP_append, h'.divisionsByZero, h.divisionsByZero, Nat.add_assoc]
  ranPastEnd := by rw [List.countP_append, h'.ranPastEnd, h.ranPastEnd, Nat.add_assoc]
  stepLimitTrips := by
    rw [List.countP_append, h'.stepLimitTrips, h.stepLimitTrips, Nat.add_assoc]

namespace Scan

variable {s t : Scan} {i : Instruction} {p : Progress} {events : List Event} {budget : Nat}
  {e : CycleEnd}

def untraced (s : Scan) : Scan := { s with machine := s.machine.withTracing false }

/-- The report of the instruction that is executed at a point. -/
def trace? (s : Scan) : Option Event := s.instruction?.map (.executing s.pc ·)

theorem noted_untraced (s : Scan) (i : Instruction) :
    s.untraced.noted i = (s.noted i).map (·.withTracing false) :=
  s.noted_mapSettings (fun _ => false) id i

theorem traceFree_noted (s : Scan) (i : Instruction) : TraceFree (s.noted i).events := by
  intro event h
  obtain ⟨a, -, rfl⟩ := Machine.exists_of_mem_note _ _ _ _ h
  cases a <;> rfl

theorem reports_untraced (s : Scan) (i : Instruction) :
    s.untraced.reports i = withoutTraces (s.reports i) := by
  have htrace : withoutTraces (s.machine.traceOf s.pc i) = [] := by
    unfold Machine.traceOf
    split <;> rfl
  rw [reports, reports, withoutTraces_append, htrace, (s.traceFree_noted i).withoutTraces_eq,
    noted_untraced]
  rfl

/-- Without tracing a cycle goes on in the same way and reports the same, traces apart. -/
theorem Moves.untraced (h : s.Moves p events) :
    s.untraced.Moves p.untraced (withoutTraces events) := by
  cases h with
  | pastEnd hi => exact .pastEnd hi
  | limit hi hl => exact .limit hi hl
  | next hi hl hf =>
    have hm := Moves.next (s := s.untraced) hi hl hf
    rwa [noted_untraced, reports_untraced] at hm
  | jump hi hl hf ht hn =>
    have hm := Moves.jump (s := s.untraced) hi hl hf ht hn
    rwa [noted_untraced, reports_untraced] at hm
  | finish hi hl hf =>
    have hm := Moves.finish (s := s.untraced) hi hl hf
    rwa [noted_untraced, reports_untraced] at hm
  | astray hi hl hf ht =>
    have hm := Moves.astray (s := s.untraced) hi hl hf ht
    rw [noted_untraced, reports_untraced] at hm
    rwa [withoutTraces_append]

theorem run_untraced (budget : Nat) (s : Scan) :
    s.untraced.run budget #[] = (s.run budget #[]).map CycleEnd.untraced := by
  induction budget generalizing s with
  | zero => rfl
  | succ budget ih =>
    cases s using moves_cases with
    | ended outcome m events hm =>
      rw [run_succ_of_ended hm.step_eq, run_succ_of_ended hm.untraced.step_eq]
      rfl
    | @running s next events hm =>
      have hnext : s.untraced.run (budget + 1) #[] =
          next.untraced.run budget (#[] ++ withoutTraces events) :=
        run_succ_of_running hm.untraced.step_eq budget #[]
      rw [run_succ_of_running hm.step_eq, hnext, run_log _ next, run_log _ next.untraced, ih,
        Option.map_map, Option.map_map]
      congr 1
      funext e
      simp [CycleEnd.untraced]

/-- What is executed at a point is reported there first, and nothing else is traced. -/
theorem Moves.exists_events_eq (hm : s.Moves p events) (ht : s.machine.tracing = true) :
    ∃ rest, events = s.trace?.toList ++ rest ∧ TraceFree rest := by
  have hreports {i : Instruction} (hi : s.machine.program.fetch? s.pc = some i)
      (hl : s.machine.reachedLimit? s.steps = none) :
      s.reports i = s.trace?.toList ++ (s.noted i).events := by
    rw [reports, Machine.traceOf, if_pos ht, trace?, instruction?_of_fetch hi hl]
    rfl
  cases hm with
  | pastEnd hi =>
    rw [trace?, instruction?_of_pastEnd hi]
    exact ⟨[_], rfl, traceFree_singleton rfl⟩
  | limit hi hl =>
    rw [trace?, instruction?_of_limit hl]
    exact ⟨[_], rfl, traceFree_singleton rfl⟩
  | next hi hl | jump hi hl | finish hi hl => exact ⟨_, hreports hi hl, s.traceFree_noted _⟩
  | @astray i target hi hl =>
    refine ⟨(s.noted i).events ++ [.jumpOutside s.pc target], ?_,
      (s.traceFree_noted i).append (traceFree_singleton rfl)⟩
    rw [hreports hi hl, List.append_assoc]

theorem filter_trace? (s : Scan) : s.trace?.toList.filter Event.isTrace = s.trace?.toList := by
  rw [trace?]
  cases s.instruction? <;> rfl

theorem filter_step_events (ht : s.machine.tracing = true) :
    s.step.events.filter Event.isTrace = s.trace?.toList := by
  obtain ⟨rest, hevents, hrest⟩ := (moves_step s).exists_events_eq ht
  rw [hevents, List.filter_append, filter_trace?, hrest.filter_eq, List.append_nil]

theorem tracing_of_run (h : s.run budget #[] = some e) : e.machine.tracing = s.machine.tracing := by
  obtain ⟨t, _, _, hr, hm, _⟩ := exists_last_of_run h
  exact (hm.tracing_eq : e.machine.tracing = _).trans hr.tracing_eq

/-- Of the reports of an instruction only a division by zero is neither a trace nor a warning. -/
theorem countP_reports (s : Scan) (i : Instruction) {counts : Event → Bool}
    (htrace : ∀ pc i, counts (.executing pc i) = false)
    (hunsupported : ∀ pc code, counts (.unsupportedSkipped pc code) = false)
    (houtside : ∀ pc, counts (.operandOutside pc) = false) :
    (s.reports i).countP counts =
      match (s.effect i).anomaly with
      | some (.divisionByZero divisor) => [Event.divisionByZero s.pc divisor].countP counts
      | _ => 0 := by
  have hzero : (s.machine.traceOf s.pc i).countP counts = 0 := by
    unfold Machine.traceOf
    split <;> simp [htrace]
  have hwarn {m : Machine} {event : Event} (h : counts event = false) :
      (m.warnOnce s.pc event).events.countP counts = 0 := by
    unfold Machine.warnOnce
    split <;> simp [h]
  rw [reports, List.countP_append, hzero, Nat.zero_add, noted]
  rcases (s.effect i).anomaly with _ | a
  · rfl
  · cases a with
    | divisionByZero => rfl
    | unsupported code => exact hwarn (hunsupported s.pc code)
    | operandOutside => exact hwarn (houtside s.pc)

theorem counted_reports (s : Scan) (i : Instruction) :
    s.machine.statistics.CountedBy (s.noted i).value.statistics (s.reports i) := by
  constructor
  all_goals
    rw [countP_reports s i (fun _ _ => rfl) (fun _ _ => rfl) fun _ => rfl, statistics_noted,
      Effect.gain]
    rcases (s.effect i).anomaly with _ | a
    · rfl
    · cases a <;> rfl

theorem Moves.counted (hm : s.Moves p events) :
    s.machine.statistics.CountedBy p.machine.statistics events := by
  cases hm with
  | pastEnd | limit => exact ⟨rfl, rfl, rfl⟩
  | next | finish => exact counted_reports s _
  | @jump i =>
    obtain ⟨hd, hp, hl⟩ := counted_reports s i
    exact ⟨hd, hp, hl⟩
  | @astray i => exact (counted_reports s i).trans ⟨rfl, rfl, rfl⟩

theorem counted_of_run (h : s.run budget #[] = some e) :
    s.machine.statistics.CountedBy e.machine.statistics e.events := by
  refine course_induct (P := fun s _ e =>
    s.machine.statistics.CountedBy e.machine.statistics e.events) ?_ ?_ h
  · intro s outcome m events hm
    exact hm.counted
  · intro s t points events e hm ih
    exact hm.counted.trans ih

end Scan

namespace Machine

variable {m : Machine} {budget count : Nat} {e : CycleEnd} {es : List CycleEnd}

/-- The points that cycles one after the other pass. -/
def passed (budget : Nat) : Nat → Machine → List Scan
  | 0, _ => []
  | count + 1, m =>
    m.start.course budget ++
      match m.cycle budget with
      | none => []
      | some e => passed budget count e.machine

theorem passed_induct {P : Machine → List Scan → List CycleEnd → Prop} (nil : ∀ m, P m [] [])
    (cons : ∀ {m : Machine} {e : CycleEnd} {points : List Scan} {later : List CycleEnd},
      m.cycle budget = some e → P e.machine points later →
        P m (m.start.course budget ++ points) (e :: later))
    (h : m.ends budget count = some es) : P m (m.passed budget count) es := by
  induction count generalizing m es with
  | zero =>
    cases h
    exact nil m
  | succ count ih =>
    obtain ⟨e, later, he, hlater, rfl⟩ := ends_succ_eq_some_iff.1 h
    rw [passed, he]
    exact cons he (ih hlater)

theorem events_of_ends (h : m.ends budget count = some es) :
    es.flatMap (·.events) = (m.passed budget count).flatMap (·.step.events) := by
  refine passed_induct (P := fun _ points es =>
    es.flatMap (·.events) = points.flatMap (·.step.events)) (fun _ => rfl) ?_ h
  intro m e points later he ih
  rw [List.flatMap_cons, List.flatMap_append, ih, Scan.events_of_run he]

theorem tracing_of_mem_passed (h : m.ends budget count = some es) {s : Scan}
    (hs : s ∈ m.passed budget count) : s.machine.tracing = m.tracing := by
  refine passed_induct (P := fun m points _ =>
    ∀ s ∈ points, s.machine.tracing = m.tracing) ?_ ?_ h s hs
  · intro m s hs
    exact absurd hs List.not_mem_nil
  · intro m e points later he ih s hs
    rcases List.mem_append.1 hs with hs | hs
    · exact (Scan.reaches_of_mem_course hs).tracing_eq
    · exact (ih s hs).trans (Scan.tracing_of_run he)

theorem instructions_of_ends (h : m.ends budget count = some es) :
    (m.after es).statistics.instructions =
      m.statistics.instructions + (m.passed budget count).countP Scan.executes := by
  refine passed_induct (P := fun m points es => (m.after es).statistics.instructions =
    m.statistics.instructions + points.countP Scan.executes) (fun _ => rfl) ?_ h
  intro m e points later he ih
  rw [after_cons, ih, instructions_of_cycle he, List.countP_append, Nat.add_assoc]

/-- Cycles of a machine that does not trace are the cycles of any other one, without the traces. -/
theorem ends_untraced (m : Machine) (budget count : Nat) :
    (m.withTracing false).ends budget count =
      (m.ends budget count).map (List.map CycleEnd.untraced) := by
  induction count generalizing m with
  | zero => rfl
  | succ count ih =>
    have hcycle : (m.withTracing false).cycle budget = (m.cycle budget).map CycleEnd.untraced :=
      Scan.run_untraced budget m.start
    rw [ends, ends, hcycle]
    cases m.cycle budget with
    | none => rfl
    | some e =>
      have hrest := ih e.machine
      simp only [Option.map_some, CycleEnd.untraced] at hrest ⊢
      rw [hrest]
      simp [CycleEnd.untraced, Function.comp_def]

/-- The traces of a machine that traces are those of the instructions executed at the points that its
cycles pass. -/
theorem traces_of_ends (h : m.ends budget count = some es) (ht : m.tracing = true) :
    (es.flatMap (·.events)).filter Event.isTrace =
      (m.passed budget count).filterMap Scan.trace? := by
  rw [events_of_ends h, List.filter_flatMap, List.filterMap_eq_flatMap_toList]
  refine List.flatMap_congr fun s hs => Scan.filter_step_events ?_
  rw [tracing_of_mem_passed h hs, ht]

theorem instructions_traced (h : m.ends budget count = some es) (ht : m.tracing = true) :
    (m.after es).statistics.instructions =
      m.statistics.instructions + (es.flatMap (·.events)).countP Event.isTrace := by
  rw [instructions_of_ends h, List.countP_eq_length_filter (l := es.flatMap (·.events)),
    traces_of_ends h ht, List.length_filterMap_eq_countP]
  simp only [Scan.trace?, Option.isSome_map]
  rfl

theorem counted_of_cycle (h : m.cycle budget = some e) :
    m.statistics.CountedBy e.machine.statistics e.events := by
  obtain ⟨hd, hp, hl⟩ := Scan.counted_of_run h
  exact ⟨hd, hp, hl⟩

theorem counted_of_ends (h : m.ends budget count = some es) :
    m.statistics.CountedBy (m.after es).statistics (es.flatMap (·.events)) := by
  refine passed_induct (P := fun m _ es =>
    m.statistics.CountedBy (m.after es).statistics (es.flatMap (·.events))) ?_ ?_ h
  · intro m
    exact ⟨rfl, rfl, rfl⟩
  · intro m e points later he ih
    rw [after_cons, List.flatMap_cons]
    exact (counted_of_cycle he).trans ih

/-- Tracing changes nothing but the log, where it reports each executed instruction with its address
and its text ahead of whatever else that instruction has reported. Traced or not, the log tells how
much the counters of divisions by zero, of ends past the program and of trips of the limit grow. -/
theorem tracing_transparent (m : Machine) (budget count : Nat) :
    (m.withTracing false).ends budget count =
      ((m.withTracing true).ends budget count).map (List.map CycleEnd.untraced) ∧
    (∀ es, (m.withTracing true).ends budget count = some es →
      let points := (m.withTracing true).passed budget count
      let log := es.flatMap (·.events)
      log = points.flatMap (·.step.events) ∧
      (∀ s ∈ points, ∃ rest, s.step.events = s.trace?.toList ++ rest ∧ TraceFree rest) ∧
      log.filter Event.isTrace = points.filterMap Scan.trace? ∧
      (log.filter Event.isTrace).map Event.message = points.filterMap (fun s =>
        s.instruction?.map fun i => Hexadecimal.padded 3 s.pc ++ ": " ++ i.text) ∧
      ((m.withTracing true).after es).statistics.instructions =
        m.statistics.instructions + log.countP Event.isTrace) ∧
    ∀ tracing es, (m.withTracing tracing).ends budget count = some es →
      let log := es.flatMap (·.events)
      let last := ((m.withTracing tracing).after es).statistics
      last.divisionsByZero =
        m.statistics.divisionsByZero + log.countP Event.isDivisionByZero ∧
      last.ranPastEnd = m.statistics.ranPastEnd + log.countP Event.isRanPastEnd ∧
      last.stepLimitTrips = m.statistics.stepLimitTrips + log.countP Event.isStepLimitReached := by
  refine ⟨(m.withTracing true).ends_untraced budget count, ?_, ?_⟩
  · intro es h points log
    have htraces : log.filter Event.isTrace = points.filterMap Scan.trace? := traces_of_ends h rfl
    refine ⟨events_of_ends h, ?_, htraces, ?_, instructions_traced h rfl⟩
    · intro s hs
      exact (Scan.moves_step s).exists_events_eq (tracing_of_mem_passed h hs)
    · rw [htraces, List.map_filterMap]
      refine List.filterMap_congr fun s _ => ?_
      rw [Scan.trace?, Option.map_map]
      rfl
  · intro tracing es h
    obtain ⟨hd, hp, hl⟩ := counted_of_ends h
    exact ⟨hd, hp, hl⟩

/-- Two cycles, one that runs past the end and one that the limit cuts, with three divisions by zero
between them: the traces are their eight instructions. -/
theorem tracing_transparent_two_ends :
    let division : Instruction := .arithmetic Opcode.divide.code 1 0 0
    let m : Machine :=
      { program := ⟨#[division, .ifBitClear 0 0, .jump 4, .endOfProgram, .setBit 0]⟩
        memory := .zero 1 2
        stepLimit := some 4 }
    ∃ es, (m.withTracing true).ends 9 2 = some es ∧
      (m.withTracing false).ends 9 2 = some (es.map CycleEnd.untraced) ∧
      es.map (·.outcome) = [.ranPastEnd, .stepLimitReached 4] ∧
      (es.flatMap (·.events)).filter Event.isTrace =
        [.executing 0 division, .executing 1 (.ifBitClear 0 0), .executing 2 (.jump 4),
          .executing 4 (.setBit 0), .executing 0 division, .executing 1 (.ifBitClear 0 0),
          .executing 0 division, .executing 1 (.ifBitClear 0 0)] ∧
      (es.flatMap (·.events)).countP Event.isDivisionByZero = 3 ∧
      (es.flatMap (·.events)).countP Event.isRanPastEnd = 1 ∧
      (es.flatMap (·.events)).countP Event.isStepLimitReached = 1 := by
  intro division m
  have hruns : ((m.withTracing true).ends 9 2).map (fun es =>
      (es.map (·.outcome), ((m.withTracing true).after es).statistics)) =
      some ([.ranPastEnd, .stepLimitReached 4],
        { cycles := 2, instructions := 8, jumpsTaken := 3, divisionsByZero := 3, ranPastEnd := 1,
          stepLimitTrips := 1 }) := by decide
  obtain ⟨es, hes, hends⟩ := Option.map_eq_some_iff.1 hruns
  obtain ⟨ho, hstatistics⟩ := Prod.mk.inj hends
  obtain ⟨huntraced, htraced, hcounted⟩ := m.tracing_transparent 9 2
  obtain ⟨-, -, htraces, -, -⟩ := htraced es hes
  obtain ⟨hd, hp, hl⟩ := hcounted true es hes
  rw [hstatistics] at hd hp hl
  rw [hes] at huntraced
  refine ⟨es, hes, huntraced, ho, ?_, (hd.trans (Nat.zero_add _)).symm,
    (hp.trans (Nat.zero_add _)).symm, (hl.trans (Nat.zero_add _)).symm⟩
  rw [htraces]
  decide

end Machine

end LadderMachine
