import LadderMachine.Proofs.Machine.Moves

/-!
# What is added to the counters

Statistics are added counter by counter. An instruction adds the `gain` of its effect: one to the
counter of instructions and one to the counter of its anomaly, if there is one. Two pairs of machines
`GrowAlike` if the same gain leads from the first to the second in both, wherever they started.
-/

namespace LadderMachine

namespace Statistics

instance : Add Statistics where
  add s t :=
    { cycles := s.cycles + t.cycles
      instructions := s.instructions + t.instructions
      jumpsTaken := s.jumpsTaken + t.jumpsTaken
      divisionsByZero := s.divisionsByZero + t.divisionsByZero
      unsupportedOperations := s.unsupportedOperations + t.unsupportedOperations
      addressFaults := s.addressFaults + t.addressFaults
      ranPastEnd := s.ranPastEnd + t.ranPastEnd
      stepLimitTrips := s.stepLimitTrips + t.stepLimitTrips }

/-- What has been added since; counters never fall. -/
instance : Sub Statistics where
  sub s t :=
    { cycles := s.cycles - t.cycles
      instructions := s.instructions - t.instructions
      jumpsTaken := s.jumpsTaken - t.jumpsTaken
      divisionsByZero := s.divisionsByZero - t.divisionsByZero
      unsupportedOperations := s.unsupportedOperations - t.unsupportedOperations
      addressFaults := s.addressFaults - t.addressFaults
      ranPastEnd := s.ranPastEnd - t.ranPastEnd
      stepLimitTrips := s.stepLimitTrips - t.stepLimitTrips }

variable (r s t : Statistics)

theorem add_eq : s + t =
    ⟨s.cycles + t.cycles, s.instructions + t.instructions, s.jumpsTaken + t.jumpsTaken,
      s.divisionsByZero + t.divisionsByZero, s.unsupportedOperations + t.unsupportedOperations,
      s.addressFaults + t.addressFaults, s.ranPastEnd + t.ranPastEnd,
      s.stepLimitTrips + t.stepLimitTrips⟩ := rfl

theorem add_assoc : r + s + t = r + (s + t) := by
  simp only [add_eq, Nat.add_assoc]

theorem sub_eq : s - t =
    ⟨s.cycles - t.cycles, s.instructions - t.instructions, s.jumpsTaken - t.jumpsTaken,
      s.divisionsByZero - t.divisionsByZero, s.unsupportedOperations - t.unsupportedOperations,
      s.addressFaults - t.addressFaults, s.ranPastEnd - t.ranPastEnd,
      s.stepLimitTrips - t.stepLimitTrips⟩ := rfl

theorem add_sub_cancel_left : s + t - s = t := by
  simp only [sub_eq, add_eq, Nat.add_sub_cancel_left]

end Statistics

/-- What an instruction with this effect adds to the counters, a jump apart. -/
def Effect.gain (e : Effect) : Statistics :=
  match e.anomaly with
  | none => { instructions := 1 }
  | some (.divisionByZero _) => { instructions := 1, divisionsByZero := 1 }
  | some (.unsupported _) => { instructions := 1, unsupportedOperations := 1 }
  | some .operandOutside => { instructions := 1, addressFaults := 1 }

theorem Scan.statistics_noted (s : Scan) (i : Instruction) :
    (s.noted i).value.statistics = s.machine.statistics + (s.effect i).gain := by
  unfold noted Effect.gain
  cases (s.effect i).anomaly with
  | none => rfl
  | some a =>
    cases a with
    | divisionByZero => rfl
    | unsupported => exact Machine.statistics_warnOnce _ _ _
    | operandOutside => exact Machine.statistics_warnOnce _ _ _

theorem Effect.instructions_gain (e : Effect) : e.gain.instructions = 1 := by
  unfold gain
  split <;> rfl

theorem Effect.ends_gain (e : Effect) : e.gain.ranPastEnd = 0 ∧ e.gain.stepLimitTrips = 0 := by
  unfold gain
  split <;> exact ⟨rfl, rfl⟩

namespace Scan

variable {s t : Scan} {p : Progress} {events : List Event}

theorem instructions_noted (s : Scan) (i : Instruction) :
    (s.noted i).value.statistics.instructions = s.machine.statistics.instructions + 1 := by
  rw [statistics_noted, ← (s.effect i).instructions_gain]
  rfl

/-- A cycle that goes on has executed one more instruction. -/
theorem Moves.instructions_running (h : s.Moves (.running t) events) :
    t.steps = s.steps + 1 ∧
      t.machine.statistics.instructions = s.machine.statistics.instructions + 1 := by
  cases h with
  | next => exact ⟨rfl, instructions_noted s _⟩
  | jump => exact ⟨rfl, instructions_noted s _⟩

/-- Without a limit every move executes an instruction, except at the end of the program. -/
theorem Moves.instructions_eq (h : s.Moves p events) (hu : s.machine.stepLimit = none) :
    s.machine.program.fetch? s.pc = none ∧
        p.machine.statistics.instructions = s.machine.statistics.instructions ∨
      p.machine.statistics.instructions = s.machine.statistics.instructions + 1 := by
  cases h with
  | pastEnd hi => exact .inl ⟨hi, rfl⟩
  | limit hi hl => simp [Machine.reachedLimit?, hu] at hl
  | next | jump | finish | astray => exact .inr (instructions_noted s _)

theorem Moves.instructions_le (h : s.Moves p events) :
    s.machine.statistics.instructions ≤ p.machine.statistics.instructions := by
  cases h with
  | pastEnd | limit => exact Nat.le_refl _
  | next | jump | finish | astray =>
    exact Nat.le_of_lt (Nat.lt_of_lt_of_eq (Nat.lt_succ_self _) (instructions_noted s _).symm)

theorem instructions_le_of_run {budget : Nat} {log : Array Event} {e : CycleEnd}
    (h : s.run budget log = some e) :
    s.machine.statistics.instructions ≤ e.machine.statistics.instructions := by
  obtain ⟨t, _, _, hr, hm, _⟩ := exists_last_of_run h
  have hle : s.machine.statistics.instructions ≤ t.machine.statistics.instructions := by
    refine hr.induct (P := fun t =>
      s.machine.statistics.instructions ≤ t.machine.statistics.instructions) (Nat.le_refl _) ?_
    intro _ _ _ hm ih
    exact Nat.le_trans ih hm.instructions_le
  exact Nat.le_trans hle hm.instructions_le

theorem ends_noted (s : Scan) (i : Instruction) :
    (s.noted i).value.statistics.ranPastEnd = s.machine.statistics.ranPastEnd ∧
      (s.noted i).value.statistics.stepLimitTrips = s.machine.statistics.stepLimitTrips := by
  obtain ⟨hp, hl⟩ := (s.effect i).ends_gain
  simp [statistics_noted, Statistics.add_eq, hp, hl]

/-- What ends a cycle is counted at its end and not before. -/
theorem Reaches.ends_eq (h : s.Reaches t) :
    t.machine.statistics.ranPastEnd = s.machine.statistics.ranPastEnd ∧
      t.machine.statistics.stepLimitTrips = s.machine.statistics.stepLimitTrips := by
  refine h.induct (P := fun t =>
    t.machine.statistics.ranPastEnd = s.machine.statistics.ranPastEnd ∧
      t.machine.statistics.stepLimitTrips = s.machine.statistics.stepLimitTrips) ⟨rfl, rfl⟩ ?_
  rintro t u events hm ⟨hp, hl⟩
  cases hm with
  | @next i | @jump i =>
    obtain ⟨hp', hl'⟩ := ends_noted t i
    exact ⟨hp'.trans hp, hl'.trans hl⟩

end Scan

/-- The same gain leads from `m` to `m'` and from `n` to `n'`. -/
def Machine.GrowAlike (m m' n n' : Machine) : Prop :=
  ∃ gain, m'.statistics = m.statistics + gain ∧ n'.statistics = n.statistics + gain

theorem Machine.GrowAlike.refl (m n : Machine) : m.GrowAlike m n n := ⟨{}, rfl, rfl⟩

theorem Machine.GrowAlike.trans {m m' m'' n n' n'' : Machine} (h : m.GrowAlike m' n n')
    (h' : m'.GrowAlike m'' n' n'') : m.GrowAlike m'' n n'' := by
  obtain ⟨d, hm, hn⟩ := h
  obtain ⟨d', hm', hn'⟩ := h'
  exact ⟨d + d', by rw [hm', hm, Statistics.add_assoc], by rw [hn', hn, Statistics.add_assoc]⟩

end LadderMachine
