import LadderMachine.Proofs.Machine.Safety
import LadderMachine.Proofs.Machine.TwoRuns
import LadderMachine.Simulator

/-!
# Statistics are conserved

Every cycle ends in one way, and every instruction is marked at most once: as the end of the program,
as a jump, or as an anomaly. `Balanced` says so of the counters. It adds up over moves, cycles and
turns, so it holds at the end of every history, where the anomalies therefore do not outnumber
instructions and cycles together.
-/

namespace LadderMachine

namespace Statistics

structure Le (s t : Statistics) : Prop where
  cycles : s.cycles ≤ t.cycles
  instructions : s.instructions ≤ t.instructions
  jumpsTaken : s.jumpsTaken ≤ t.jumpsTaken
  divisionsByZero : s.divisionsByZero ≤ t.divisionsByZero
  unsupportedOperations : s.unsupportedOperations ≤ t.unsupportedOperations
  addressFaults : s.addressFaults ≤ t.addressFaults
  ranPastEnd : s.ranPastEnd ≤ t.ranPastEnd
  stepLimitTrips : s.stepLimitTrips ≤ t.stepLimitTrips

instance : LE Statistics := ⟨Le⟩

theorem le_add (s t : Statistics) : s ≤ s + t := by
  constructor <;> exact Nat.le_add_right _ _

/-- Sum of the counters to which an instruction can add, besides the count of instructions. -/
def marks (s : Statistics) : Nat :=
  s.jumpsTaken + s.divisionsByZero + s.unsupportedOperations + s.addressFaults

theorem marks_add (s t : Statistics) : (s + t).marks = s.marks + t.marks := by
  simp only [marks, add_eq]
  omega

/-- The counters fit so many cycles, of which so many have ended and so many completed: those that did
not complete are counted as ends of another kind, and an instruction that completed a cycle has no
other mark. -/
structure Balanced (s : Statistics) (cycles ended completed : Nat) : Prop where
  cycles_eq : s.cycles = cycles
  ended_eq : completed + s.ranPastEnd + s.stepLimitTrips = ended
  marks_le : completed + s.marks ≤ s.instructions

variable {s t : Statistics} {cycles ended completed cycles' ended' completed' : Nat}

theorem balanced_zero : Balanced {} 0 0 0 := ⟨rfl, rfl, Nat.le_refl 0⟩

theorem Balanced.add (h : s.Balanced cycles ended completed)
    (h' : t.Balanced cycles' ended' completed') :
    (s + t).Balanced (cycles + cycles') (ended + ended') (completed + completed') := by
  have hc := h.cycles_eq
  have he := h.ended_eq
  have hm := h.marks_le
  have hc' := h'.cycles_eq
  have he' := h'.ended_eq
  have hm' := h'.marks_le
  refine ⟨?_, ?_, ?_⟩
  · simp only [add_eq]
    omega
  · simp only [add_eq]
    omega
  · rw [marks_add]
    simp only [add_eq]
    omega

/-- An anomaly marks an instruction or ends a cycle. -/
theorem Balanced.anomalies_le (h : s.Balanced cycles cycles completed) :
    s.anomalies ≤ s.instructions + s.cycles := by
  have hc := h.cycles_eq
  have he := h.ended_eq
  have hm := h.marks_le
  simp only [anomalies, marks] at hm ⊢
  omega

end Statistics

namespace Effect

variable {m : Memory} {e : Effect}

theorem marks_gain_le (e : Effect) : e.gain.marks ≤ 1 := by
  unfold gain
  split <;> decide

theorem marks_gain_of_none (h : e.anomaly = none) : e.gain.marks = 0 := by
  rw [gain, h]
  rfl

theorem balanced_gain (e : Effect) : e.gain.Balanced 0 0 0 := by
  obtain ⟨hp, hl⟩ := e.ends_gain
  refine ⟨?_, by rw [hp, hl], ?_⟩
  · unfold gain
    split <;> rfl
  · rw [e.instructions_gain, Nat.zero_add]
    exact e.marks_gain_le

theorem anomaly_ofCondition_of_flow {target : Int16} {condition : Option Bool}
    (h : (ofCondition m target condition).flow ≠ .next) :
    (ofCondition m target condition).anomaly = none := by
  cases condition with
  | none => exact absurd rfl h
  | some b => exact anomaly_ofCondition_some

end Effect

theorem Operation.anomaly_eq_none_of_flow {op : Operation} {m : Memory}
    (h : (op.execute m).flow ≠ .next) : (op.execute m).anomaly = none := by
  cases op with
  | writeBit | copyBit | setLiteral | setVariable | count => exact absurd Effect.flow_ofStore h
  | arithmetic => exact absurd (flow_execute_arithmetic ..) h
  | unlessBit | unlessLiteral | unlessCompare => exact Effect.anomaly_ofCondition_of_flow h
  | jump | endOfProgram => rfl
  | marker | unsupported => exact absurd rfl h

def Outcome.completions (o : Outcome) : Nat := if o = .completed then 1 else 0

namespace Progress

def ends : Progress → Nat
  | .running _ => 0
  | .ended _ _ => 1

def completions : Progress → Nat
  | .running _ => 0
  | .ended outcome _ => outcome.completions

end Progress

namespace Turn

def isCycle : Turn → Bool
  | .cycle _ => true
  | _ => false

def isCompleted : Turn → Bool
  | .cycle e => e.outcome = .completed
  | _ => false

end Turn

namespace Scan

variable {s t : Scan} {p : Progress} {events : List Event}

/-- What a move adds to the counters, unless it is a jump astray: an instruction has one mark if it
jumps or completes the cycle, because it is no anomaly then. -/
theorem Moves.exists_gain (hm : s.Moves p events)
    (hj : ∀ pc target m, p ≠ .ended (.invalidJump pc target) m) :
    ∃ gain, p.machine.statistics = s.machine.statistics + gain ∧
      gain.Balanced 0 p.ends p.completions := by
  have hclean {i : Instruction} (hf : (s.effect i).flow ≠ .next) : (s.effect i).gain.marks = 0 :=
    Effect.marks_gain_of_none (Operation.anomaly_eq_none_of_flow hf)
  cases hm with
  | pastEnd => exact ⟨{ ranPastEnd := 1 }, rfl, rfl, rfl, Nat.le_refl 0⟩
  | limit => exact ⟨{ stepLimitTrips := 1 }, rfl, rfl, rfl, Nat.le_refl 0⟩
  | @next i => exact ⟨(s.effect i).gain, statistics_noted s i, (s.effect i).balanced_gain⟩
  | @jump i target next hi hl hf =>
    have hb := (s.effect i).balanced_gain
    have hz := hclean (i := i) (by simp [hf])
    have hgain : (s.noted i).value.countJump.statistics =
        s.machine.statistics + ((s.effect i).gain + { jumpsTaken := 1 }) := by
      rw [← Statistics.add_assoc, ← statistics_noted]
      rfl
    refine ⟨_, hgain, hb.cycles_eq, hb.ended_eq, ?_⟩
    rw [Statistics.marks_add, hz]
    exact Nat.le_of_eq (s.effect i).instructions_gain.symm
  | @finish i hi hl hf =>
    have hb := (s.effect i).balanced_gain
    have hz := hclean (i := i) (by simp [hf])
    obtain ⟨hp, ht⟩ := (s.effect i).ends_gain
    refine ⟨(s.effect i).gain, statistics_noted s i, hb.cycles_eq, ?_, ?_⟩
    · rw [hp, ht]
      rfl
    · rw [hz, (s.effect i).instructions_gain]
      exact Nat.le_refl 1
  | astray => exact absurd rfl (hj _ _ _)

theorem Reaches.exists_gain (h : s.Reaches t) :
    ∃ gain, t.machine.statistics = s.machine.statistics + gain ∧ gain.Balanced 0 0 0 := by
  refine h.induct (P := fun t => ∃ gain, t.machine.statistics = s.machine.statistics + gain ∧
    gain.Balanced 0 0 0) ⟨{}, rfl, Statistics.balanced_zero⟩ ?_
  rintro t u events hm ⟨gain, hgain, hb⟩
  obtain ⟨more, hmore, hb'⟩ := hm.exists_gain (by simp)
  refine ⟨gain + more, ?_, hb.add hb'⟩
  rw [← Statistics.add_assoc, ← hgain]
  exact hmore

end Scan

namespace Machine

variable {m m' : Machine} {turns : List Turn}

/-- A cycle of an accepted program adds one cycle, which has ended. -/
theorem exists_gain_of_cycle {budget : Nat} {e : CycleEnd} (ha : m.program.Accepted)
    (h : m.cycle budget = some e) :
    ∃ gain, e.machine.statistics = m.statistics + gain ∧
      gain.Balanced 1 1 e.outcome.completions := by
  have hout := (regular_of_cycle ha h).outcome_ne_invalidJump
  obtain ⟨s, _, _, hr, hm, _⟩ := exists_last_of_cycle h
  obtain ⟨before, hbefore, hb⟩ := hr.exists_gain
  obtain ⟨last, hlast, hl⟩ := hm.exists_gain (by simp [hout])
  have hone : Statistics.Balanced { cycles := 1 } 1 0 0 := ⟨rfl, rfl, Nat.le_refl 0⟩
  have hstart : m.start.machine.statistics = m.statistics + { cycles := 1 } := rfl
  refine ⟨{ cycles := 1 } + before + last, ?_, ?_⟩
  · rw [← Statistics.add_assoc, ← Statistics.add_assoc, ← hstart, ← hbefore]
    exact hlast
  · have hsum := (hone.add hb).add hl
    simpa [Progress.ends, Progress.completions] using hsum

theorem Takes.exists_gain {turn : Turn} (ha : m.program.Accepted) (h : m.Takes turn m') :
    ∃ gain, m'.statistics = m.statistics + gain ∧
      gain.Balanced turn.isCycle.toNat turn.isCycle.toNat turn.isCompleted.toNat := by
  cases h with
  | @cycle budget e hc =>
    have hn : (Turn.cycle e).isCompleted.toNat = e.outcome.completions := by
      simp only [Turn.isCompleted, Outcome.completions]
      split <;> simp [*]
    rw [hn]
    exact exists_gain_of_cycle ha hc
  | write | replace => exact ⟨{}, rfl, Statistics.balanced_zero⟩

theorem History.exists_gain (h : m.History turns m') (ha : m.program.Accepted)
    (hr : ∀ p, .replace p ∈ turns → p.Accepted) :
    ∃ gain, m'.statistics = m.statistics + gain ∧
      gain.Balanced (turns.countP Turn.isCycle) (turns.countP Turn.isCycle)
        (turns.countP Turn.isCompleted) := by
  induction h with
  | start => exact ⟨{}, rfl, Statistics.balanced_zero⟩
  | @turn turns turn m₁ m₂ h ht ih =>
    have hbefore : ∀ p, .replace p ∈ turns → p.Accepted := fun p hp => hr p (by simp [hp])
    obtain ⟨gain, hgain, hb⟩ := ih hbefore
    obtain ⟨more, hmore, hb'⟩ := ht.exists_gain (h.accepted ha hbefore)
    have hcount (q : Turn → Bool) : (turns ++ [turn]).countP q = turns.countP q + (q turn).toNat := by
      rw [List.countP_append, List.countP_singleton]
      cases q turn <;> rfl
    refine ⟨gain + more, by rw [hmore, hgain, Statistics.add_assoc], ?_⟩
    rw [hcount, hcount]
    exact hb.add hb'

theorem Takes.statistics_eq {turn : Turn} (h : m.Takes turn m') (ht : turn.isCycle = false) :
    m'.statistics = m.statistics := by
  cases h with
  | cycle => exact absurd ht (by simp [Turn.isCycle])
  | write | replace => rfl

theorem History.statistics_eq (h : m.History turns m')
    (hn : ∀ turn ∈ turns, turn.isCycle = false) : m'.statistics = m.statistics :=
  h.induct (P := fun n => n.statistics = m.statistics) rfl
    fun turn hturn _ _ ht h₁ => (ht.statistics_eq (hn turn hturn)).trans h₁

/-- The counters at the end of every history of a new machine, over memory of any size: each cycle
has ended in one way, each instruction is marked at most once, no later history lowers a counter, and
one without cycles changes none. So as long as instructions and cycles together can be counted in 64
bits, the sum of the anomalies can. -/
theorem history_balanced {config : Config} {program : Program} {memory : Memory}
    (h : (ofConfig config program memory).History turns m) (ha : program.Accepted)
    (hr : ∀ p, .replace p ∈ turns → p.Accepted) :
    let s := m.statistics
    let completed := turns.countP Turn.isCompleted
    s.cycles = turns.countP Turn.isCycle ∧
      s.cycles = completed + s.ranPastEnd + s.stepLimitTrips ∧
      completed + s.jumpsTaken + s.divisionsByZero + s.unsupportedOperations + s.addressFaults ≤
        s.instructions ∧
      s.anomalies ≤ s.instructions + s.cycles ∧
      (s.instructions + s.cycles < UInt64.size → s.anomalies < UInt64.size) ∧
      ∀ later m', m.History later m' →
        ((∀ p, .replace p ∈ later → p.Accepted) → s ≤ m'.statistics) ∧
        ((∀ turn ∈ later, turn.isCycle = false) → m'.statistics = s) := by
  intro s completed
  obtain ⟨gain, hgain, hb⟩ := h.exists_gain ha hr
  have hs : s = gain := by
    have hzero : (ofConfig config program memory).statistics + gain = gain := by
      simp [ofConfig, Statistics.add_eq]
    exact hgain.trans hzero
  rw [← hs] at hb
  have hended : s.cycles = completed + s.ranPastEnd + s.stepLimitTrips :=
    hb.cycles_eq.trans hb.ended_eq.symm
  have hmarks := hb.marks_le
  simp only [Statistics.marks, ← Nat.add_assoc] at hmarks
  refine ⟨hb.cycles_eq, hended, hmarks, hb.anomalies_le,
    fun hlt => Nat.lt_of_le_of_lt hb.anomalies_le hlt, fun later m' hl => ⟨fun hp => ?_, ?_⟩⟩
  · obtain ⟨more, hmore, -⟩ := hl.exists_gain (h.accepted ha hr) hp
    rw [hmore]
    exact s.le_add more
  · exact hl.statistics_eq

/-- A jump, a division by zero and an operand outside a memory that is too small, a refused write, and
another program that jumps until the step limit cuts it: every instruction is marked. -/
theorem history_balanced_tripped :
    let first : Program := ⟨#[.jump 2, .setBit 0, .arithmetic Opcode.divide.code 0 0 0,
      .increment 1, .endOfProgram]⟩
    let second : Program := ⟨#[.jump 0, .endOfProgram]⟩
    let m := ofConfig { stepLimit := some 5 } first (.zero 1 1)
    ∃ e₁ e₂, m.History [.cycle e₁, .write (.bit 7 true), .replace second, .cycle e₂] e₂.machine ∧
      let s := e₂.machine.statistics
      s = { cycles := 2, instructions := 9, jumpsTaken := 6, divisionsByZero := 1,
            addressFaults := 1, stepLimitTrips := 1 } ∧
        s.cycles = 1 + s.ranPastEnd + s.stepLimitTrips ∧
        1 + s.jumpsTaken + s.divisionsByZero + s.unsupportedOperations + s.addressFaults ≤
          s.instructions := by
  intro first second m
  have hfirst : first.Accepted := ⟨⟨1, 2, 5⟩, first.instructions.toList, by decide⟩
  have hsecond : second.Accepted := ⟨⟨1, 2, 5⟩, second.instructions.toList, by decide⟩
  have hruns : ((m.cycle 9).bind fun e₁ =>
      (({ e₁.machine with memory := e₁.machine.memory.host (.bit 7 true) } : Machine).replaceProgram
        second).cycle 9 |>.map fun e₂ => (e₁.outcome, e₂.outcome, e₂.machine.statistics)) =
      some (.completed, .stepLimitReached 5,
        { cycles := 2, instructions := 9, jumpsTaken := 6, divisionsByZero := 1,
          addressFaults := 1, stepLimitTrips := 1 }) := by decide
  obtain ⟨e₁, h₁, hruns⟩ := Option.bind_eq_some_iff.1 hruns
  obtain ⟨e₂, h₂, hends⟩ := Option.map_eq_some_iff.1 hruns
  obtain ⟨ho₁, hends⟩ := Prod.mk.inj hends
  obtain ⟨ho₂, hs⟩ := Prod.mk.inj hends
  have h : m.History [.cycle e₁, .write (.bit 7 true), .replace second, .cycle e₂] e₂.machine :=
    .turn (.turn (.turn (.turn .start (.cycle h₁)) (.write _)) (.replace second)) (.cycle h₂)
  have hr : ∀ p, Turn.replace p ∈ [.cycle e₁, .write (.bit 7 true), .replace second, .cycle e₂] →
      p.Accepted := by
    intro p hp
    simp only [List.mem_cons, reduceCtorEq, Turn.replace.injEq, List.not_mem_nil, or_false,
      false_or] at hp
    exact hp ▸ hsecond
  obtain ⟨-, hended, hmarks, -⟩ := history_balanced h hfirst hr
  have hone : [Turn.cycle e₁, .write (.bit 7 true), .replace second, .cycle e₂].countP
      Turn.isCompleted = 1 := by
    simp [Turn.isCompleted, ho₁, ho₂]
  rw [hone] at hended hmarks
  exact ⟨e₁, e₂, h, hs, hended, hmarks⟩

end Machine

end LadderMachine
