import LadderMachine.Execution
import LadderMachine.Program
import LadderMachine.Statistics

/-!
# The machine

A machine runs its program in cycles. A cycle starts at address 0 and executes one instruction after
the other, going on at the next address unless the instruction jumps. It ends at the end marker, past
the last instruction, at a jump that names no instruction, or at the step limit if one is set. The
limit is tested after the instruction has been fetched and before it is executed.

A cycle without a step limit need not end, so `cycle` takes a budget of instructions to execute and
answers `none` when the budget does not last to the end of the cycle; a cycle that ends within one
budget ends in the same way within every larger one.
-/

namespace LadderMachine

inductive Outcome
  | completed
  | ranPastEnd
  /-- Carries the number of instructions executed before. -/
  | stepLimitReached (steps : Nat)
  | invalidJump (pc : Nat) (target : Int16)
deriving DecidableEq

structure Machine where
  program : Program
  memory : Memory
  statistics : Statistics := {}
  tracing : Bool := false
  /-- Most instructions that one cycle executes. -/
  stepLimit : Option Nat := none
  /-- For each address whether it has already warned of an anomaly. -/
  reported : Array Bool := .replicate program.length false
deriving DecidableEq

namespace Machine

/-- Puts in another program and keeps memory and statistics; every address can warn again. -/
def replaceProgram (m : Machine) (program : Program) : Machine :=
  { m with program, reported := .replicate program.length false }

def warnOnce (m : Machine) (pc : Nat) (event : Event) : Logged Machine :=
  if m.reported[pc]? = some false then
    ⟨{ m with reported := m.reported.setIfInBounds pc true }, [event]⟩
  else ⟨m, []⟩

def countDivisionByZero (m : Machine) : Machine :=
  { m with statistics.divisionsByZero := m.statistics.divisionsByZero + 1 }

def countUnsupported (m : Machine) : Machine :=
  { m with statistics.unsupportedOperations := m.statistics.unsupportedOperations + 1 }

def countAddressFault (m : Machine) : Machine :=
  { m with statistics.addressFaults := m.statistics.addressFaults + 1 }

def countInstruction (m : Machine) : Machine :=
  { m with statistics.instructions := m.statistics.instructions + 1 }

def countJump (m : Machine) : Machine :=
  { m with statistics.jumpsTaken := m.statistics.jumpsTaken + 1 }

def countCycle (m : Machine) : Machine :=
  { m with statistics.cycles := m.statistics.cycles + 1 }

def countRanPastEnd (m : Machine) : Machine :=
  { m with statistics.ranPastEnd := m.statistics.ranPastEnd + 1 }

def countStepLimit (m : Machine) : Machine :=
  { m with statistics.stepLimitTrips := m.statistics.stepLimitTrips + 1 }

def note (m : Machine) (pc : Nat) : Option Anomaly → Logged Machine
  | none => ⟨m, []⟩
  | some (.divisionByZero divisor) => ⟨m.countDivisionByZero, [.divisionByZero pc divisor]⟩
  | some (.unsupported code) => m.countUnsupported.warnOnce pc (.unsupportedSkipped pc code)
  | some .operandOutside => m.countAddressFault.warnOnce pc (.operandOutside pc)

/-- The step limit, once that many instructions have been executed. -/
def reachedLimit? (m : Machine) (steps : Nat) : Option Nat := m.stepLimit.filter (· ≤ steps)

def traceOf (m : Machine) (pc : Nat) (i : Instruction) : List Event :=
  if m.tracing then [.executing pc i] else []

end Machine

/-- A point within a cycle: the machine, the address of the next instruction and the number of
instructions executed so far. -/
structure Scan where
  machine : Machine
  pc : Nat := 0
  steps : Nat := 0
deriving DecidableEq

/-- The cycle goes on, or it has ended with the given machine. -/
inductive Progress
  | running (scan : Scan)
  | ended (outcome : Outcome) (machine : Machine)
deriving DecidableEq

namespace Scan

def follow (s : Scan) (m : Machine) : Flow → Logged Progress
  | .next => ⟨.running ⟨m, s.pc + 1, s.steps + 1⟩, []⟩
  | .finish => ⟨.ended .completed m, []⟩
  | .jump target =>
    match (operandAddress? target).filter (· < m.program.length) with
    | some next => ⟨.running ⟨m.countJump, next, s.steps + 1⟩, []⟩
    | none => ⟨.ended (.invalidJump s.pc target) m.countAddressFault, [.jumpOutside s.pc target]⟩

def perform (s : Scan) (i : Instruction) : Logged Progress :=
  let effect := i.decode.execute s.machine.memory
  let noted := { s.machine.countInstruction with memory := effect.memory }.note s.pc effect.anomaly
  let followed := s.follow noted.value effect.flow
  ⟨followed.value, s.machine.traceOf s.pc i ++ noted.events ++ followed.events⟩

def step (s : Scan) : Logged Progress :=
  match s.machine.program.fetch? s.pc with
  | none => ⟨.ended .ranPastEnd s.machine.countRanPastEnd, [.ranPastEnd s.pc]⟩
  | some i =>
    match s.machine.reachedLimit? s.steps with
    | some limit =>
      ⟨.ended (.stepLimitReached s.steps) s.machine.countStepLimit, [.stepLimitReached limit s.pc]⟩
    | none => s.perform i

end Scan

structure CycleEnd where
  outcome : Outcome
  machine : Machine
  events : List Event
deriving DecidableEq

/-- Steps on until the cycle ends, putting events behind those already reported. -/
def Scan.run : Nat → Scan → Array Event → Option CycleEnd
  | 0, _, _ => none
  | budget + 1, s, log =>
    match s.step with
    | ⟨.ended outcome machine, events⟩ => some ⟨outcome, machine, (log ++ events).toList⟩
    | ⟨.running next, events⟩ => run budget next (log ++ events)

namespace Scan

theorem run_succ_of_ended {s : Scan} {outcome : Outcome} {machine : Machine} {events : List Event}
    (h : s.step = ⟨.ended outcome machine, events⟩) (budget : Nat) (log : Array Event) :
    s.run (budget + 1) log = some ⟨outcome, machine, log.toList ++ events⟩ := by
  rw [run, h]
  simp

theorem run_succ_of_running {s next : Scan} {events : List Event}
    (h : s.step = ⟨.running next, events⟩) (budget : Nat) (log : Array Event) :
    s.run (budget + 1) log = next.run budget (log ++ events) := by
  rw [run, h]

theorem run_log (budget : Nat) (s : Scan) (log : Array Event) :
    s.run budget log =
      (s.run budget #[]).map fun e => { e with events := log.toList ++ e.events } := by
  induction budget generalizing s log with
  | zero => rfl
  | succ budget ih =>
    cases hs : s.step with
    | mk progress events =>
      cases progress with
      | ended outcome machine => simp [run_succ_of_ended hs]
      | running next =>
        rw [run_succ_of_running hs, run_succ_of_running hs, ih, ih next (#[] ++ events)]
        simp [Option.map_map, Function.comp_def]

/-- A larger budget does not change the end of a cycle. -/
theorem run_of_le {budget larger : Nat} (h : budget ≤ larger) {s : Scan} {log : Array Event}
    {e : CycleEnd} (he : s.run budget log = some e) : s.run larger log = some e := by
  induction budget generalizing larger s log with
  | zero => exact absurd he (by simp [run])
  | succ budget ih =>
    obtain ⟨rest, rfl⟩ : ∃ rest, larger = rest + 1 := ⟨larger - 1, by omega⟩
    cases hs : s.step with
    | mk progress events =>
      cases progress with
      | ended outcome machine =>
        rw [run_succ_of_ended hs] at he ⊢
        exact he
      | running next =>
        rw [run_succ_of_running hs] at he ⊢
        exact ih (by omega) he

end Scan

def Machine.start (m : Machine) : Scan := { machine := m.countCycle }

namespace Machine

/-- Runs one cycle, or answers `none` if it does not end within `budget` steps. -/
def cycle (budget : Nat) (m : Machine) : Option CycleEnd := m.start.run budget #[]

theorem cycle_of_le {budget larger : Nat} (h : budget ≤ larger) {m : Machine} {e : CycleEnd}
    (he : m.cycle budget = some e) : m.cycle larger = some e :=
  Scan.run_of_le h he

theorem cycle_unique {b₁ b₂ : Nat} {m : Machine} {e₁ e₂ : CycleEnd}
    (h₁ : m.cycle b₁ = some e₁) (h₂ : m.cycle b₂ = some e₂) : e₁ = e₂ := by
  have h := cycle_of_le (Nat.le_max_left b₁ b₂) h₁
  rw [cycle_of_le (Nat.le_max_right b₁ b₂) h₂] at h
  exact (Option.some.inj h).symm

/-- Runs cycles after others, the last of which ended as given and which reported `log`. -/
def cyclesFrom (budget : Nat) :
    Nat → Option Outcome → Machine → Array Event → Option (Logged (Option Outcome × Machine))
  | 0, last, m, log => some ⟨(last, m), log.toList⟩
  | n + 1, _, m, log =>
    match m.cycle budget with
    | none => none
    | some done => cyclesFrom budget n (some done.outcome) done.machine (log ++ done.events)

def cycles (budget n : Nat) (m : Machine) : Option (Logged (Option Outcome × Machine)) :=
  cyclesFrom budget n none m #[]

end Machine

end LadderMachine
