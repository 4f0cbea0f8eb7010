import LadderMachine.Proofs.Machine.Moves

/-!
# Histories of a machine

Between its cycles a machine takes writes of its host and other programs. A `History` lists these
turns, oldest first, each cycle with its end, and leads from one machine to another. What every turn
keeps holds at the end of every history.
-/

namespace LadderMachine

inductive HostWrite
  | bit (address : Nat) (value : Bool)
  | integer (address : Nat) (value : Int32)
  | clear
deriving DecidableEq

/-- Memory after a write of the host; a write outside memory is refused and changes nothing. -/
def Memory.host (m : Memory) : HostWrite → Memory
  | .bit address value =>
    match m.writeBit address value with
    | .ok m' => m'
    | .error _ => m
  | .integer address value =>
    match m.writeInteger address value with
    | .ok m' => m'
    | .error _ => m
  | .clear => m.clear

theorem Memory.capacity_host (m : Memory) (w : HostWrite) (b : Bank) :
    (m.host w).capacity b = m.capacity b := by
  cases w with
  | bit address value =>
    simp only [host, writeBit]
    cases h : m.setBit? address value with
    | none => rfl
    | some m' => exact capacity_setBit? h b
  | integer address value =>
    simp only [host, writeInteger]
    cases h : m.setInteger? address value with
    | none => rfl
    | some m' => exact capacity_setInteger? h b
  | clear => exact m.capacity_clear b

/-- What can happen to a machine: a cycle that ends, a write of the host, another program. -/
inductive Turn
  | cycle (done : CycleEnd)
  | write (w : HostWrite)
  | replace (program : Program)
deriving DecidableEq

namespace Machine

variable {m m' : Machine} {turns : List Turn}

inductive Takes (m : Machine) : Turn → Machine → Prop
  | cycle {budget : Nat} {done : CycleEnd} (h : m.cycle budget = some done) :
    Takes m (.cycle done) done.machine
  | write (w : HostWrite) : Takes m (.write w) { m with memory := m.memory.host w }
  | replace (program : Program) : Takes m (.replace program) (m.replaceProgram program)

/-- Turns that lead from one machine to another. -/
inductive History (m : Machine) : List Turn → Machine → Prop
  | start : History m [] m
  | turn {turns : List Turn} {turn : Turn} {m' m'' : Machine} (h : History m turns m')
      (ht : m'.Takes turn m'') : History m (turns ++ [turn]) m''

theorem History.induct {P : Machine → Prop} (h : m.History turns m') (hm : P m)
    (step : ∀ turn ∈ turns, ∀ m₁ m₂ : Machine, m₁.Takes turn m₂ → P m₁ → P m₂) : P m' := by
  induction h with
  | start => exact hm
  | turn _ ht ih =>
    have h₁ := ih fun turn hturn => step turn (List.mem_append_left _ hturn)
    exact step _ (by simp) _ _ ht h₁

/-- Every turn of a history was taken at the end of an earlier history. -/
theorem History.exists_takes (h : m.History turns m') {turn : Turn} (ht : turn ∈ turns) :
    ∃ before m₁ m₂, before ⊆ turns ∧ m.History before m₁ ∧ m₁.Takes turn m₂ := by
  induction h with
  | start => exact absurd ht (by simp)
  | @turn turns last m₁ m₂ h hl ih =>
    rcases List.mem_append.1 ht with hmem | hmem
    · obtain ⟨before, n₁, n₂, hsub, hb, hn⟩ := ih hmem
      exact ⟨before, n₁, n₂, List.subset_append_of_subset_left _ hsub, hb, hn⟩
    · cases List.mem_singleton.1 hmem
      exact ⟨turns, m₁, m₂, List.subset_append_left _ _, h, hl⟩

theorem exists_last_of_cycle {budget : Nat} {e : CycleEnd} (h : m.cycle budget = some e) :
    ∃ s before events, m.start.Reaches s ∧ s.Moves (.ended e.outcome e.machine) events ∧
      e.events = before ++ events :=
  Scan.exists_last_of_run h

theorem program_eq_of_cycle {budget : Nat} {e : CycleEnd} (h : m.cycle budget = some e) :
    e.machine.program = m.program := by
  obtain ⟨s, _, _, hr, hm, _⟩ := exists_last_of_cycle h
  exact hm.program_eq.trans hr.program_eq

theorem stepLimit_eq_of_cycle {budget : Nat} {e : CycleEnd} (h : m.cycle budget = some e) :
    e.machine.stepLimit = m.stepLimit := by
  obtain ⟨s, _, _, hr, hm, _⟩ := exists_last_of_cycle h
  exact hm.stepLimit_eq.trans hr.stepLimit_eq

theorem capacity_eq_of_cycle {budget : Nat} {e : CycleEnd} (h : m.cycle budget = some e)
    (b : Bank) : e.machine.memory.capacity b = m.memory.capacity b := by
  obtain ⟨s, _, _, hr, hm, _⟩ := exists_last_of_cycle h
  exact (hm.capacity_eq b).trans (hr.capacity_eq b)

theorem Takes.capacity_eq {turn : Turn} (h : m.Takes turn m') (b : Bank) :
    m'.memory.capacity b = m.memory.capacity b := by
  cases h with
  | cycle hc => exact capacity_eq_of_cycle hc b
  | write w => exact m.memory.capacity_host w b
  | replace => rfl

end Machine

end LadderMachine
