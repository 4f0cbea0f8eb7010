import LadderMachine.Proofs.Machine.Counters

/-!
# The step limit

A machine that differs from another in its step limit alone makes the same moves, as long as the
other one has no limit and fewer instructions have been executed than the limit allows
(`Moves.withLimit`). So a cycle that is short enough is not changed by the limit at all, and any other
cycle is cut at the point that the unlimited one has reached after just as many instructions.
-/

namespace LadderMachine

def Machine.withLimit (m : Machine) (limit : Option Nat) : Machine := { m with stepLimit := limit }

def Progress.withLimit (limit : Option Nat) : Progress → Progress
  | .running s => .running { s with machine := s.machine.withLimit limit }
  | .ended outcome m => .ended outcome (m.withLimit limit)

def CycleEnd.withLimit (e : CycleEnd) (limit : Option Nat) : CycleEnd :=
  { e with machine := e.machine.withLimit limit }

namespace Scan

def withLimit (s : Scan) (limit : Option Nat) : Scan :=
  { s with machine := s.machine.withLimit limit }

variable {s t : Scan} {p : Progress} {events : List Event} {n : Nat}

theorem noted_withLimit (s : Scan) (limit : Option Nat) (i : Instruction) :
    (s.withLimit limit).noted i = (s.noted i).map (·.withLimit limit) :=
  s.noted_mapSettings id (fun _ => limit) i

theorem reports_withLimit (s : Scan) (limit : Option Nat) (i : Instruction) :
    (s.withLimit limit).reports i = s.reports i := by
  rw [reports, noted_withLimit]
  rfl

theorem reachedLimit?_withLimit (h : s.steps < n) :
    (s.withLimit (some n)).machine.reachedLimit? s.steps = none := by
  simp [withLimit, Machine.withLimit, Machine.reachedLimit?, Option.filter, h]

/-- A limit that has not been reached does not change how a cycle goes on. At the end of the program
it does not matter whether it has been reached. -/
theorem Moves.withLimit (h : s.Moves p events) (hu : s.machine.stepLimit = none)
    (hn : s.machine.program.fetch? s.pc = none ∨ s.steps < n) :
    (s.withLimit (some n)).Moves (p.withLimit (some n)) events := by
  cases h with
  | pastEnd hi => exact .pastEnd hi
  | limit hi hl => simp [Machine.reachedLimit?, hu] at hl
  | @next i hi _ hf =>
    have hl := reachedLimit?_withLimit (hn.resolve_left (by simp [hi]))
    have hm := Moves.next (s := s.withLimit (some n)) hi hl hf
    rwa [noted_withLimit, reports_withLimit] at hm
  | @jump i target next hi _ hf ht hnext =>
    have hl := reachedLimit?_withLimit (hn.resolve_left (by simp [hi]))
    have hm := Moves.jump (s := s.withLimit (some n)) hi hl hf ht hnext
    rwa [noted_withLimit, reports_withLimit] at hm
  | @finish i hi _ hf =>
    have hl := reachedLimit?_withLimit (hn.resolve_left (by simp [hi]))
    have hm := Moves.finish (s := s.withLimit (some n)) hi hl hf
    rwa [noted_withLimit, reports_withLimit] at hm
  | @astray i target hi _ hf ht =>
    have hl := reachedLimit?_withLimit (hn.resolve_left (by simp [hi]))
    have hm := Moves.astray (s := s.withLimit (some n)) hi hl hf ht
    rwa [noted_withLimit, reports_withLimit] at hm

theorem run_withLimit {budget : Nat} {log : Array Event} {e : CycleEnd}
    (hu : s.machine.stepLimit = none) (h : s.run budget log = some e)
    (hn : e.machine.statistics.instructions + s.steps ≤ s.machine.statistics.instructions + n) :
    (s.withLimit (some n)).run budget log = some (e.withLimit (some n)) := by
  induction budget generalizing s log with
  | zero => exact absurd h (by simp [run])
  | succ budget ih =>
    cases s using moves_cases with
    | @ended s outcome m events hm =>
      rw [run_succ_of_ended hm.step_eq] at h
      cases h
      have hshort : s.machine.program.fetch? s.pc = none ∨ s.steps < n := by
        rcases hm.instructions_eq hu with ⟨hi, _⟩ | hi
        · exact .inl hi
        · simp only [Progress.machine] at hi hn
          exact .inr (by omega)
      exact run_succ_of_ended (hm.withLimit hu hshort).step_eq budget log
    | running next events hm =>
      rw [run_succ_of_running hm.step_eq] at h
      obtain ⟨hsteps, hi⟩ := hm.instructions_running
      have hle := instructions_le_of_run h
      have hnext : next.machine.stepLimit = none := hm.stepLimit_eq.trans hu
      have hrun := ih hnext h (by omega)
      rw [run_succ_of_running (hm.withLimit hu (.inr (by omega))).step_eq budget log]
      exact hrun

theorem exists_fetch_of_run (hlong : ∀ budget e, s.run budget #[] = some e →
    s.machine.statistics.instructions < e.machine.statistics.instructions) :
    ∃ i, s.machine.program.fetch? s.pc = some i := by
  cases hi : s.machine.program.fetch? s.pc with
  | some i => exact ⟨i, rfl⟩
  | none =>
    have hlt := hlong 1 _ (run_succ_of_ended (Moves.pastEnd hi).step_eq 0 #[])
    exact absurd hlt (Nat.lt_irrefl _)

/-- A run that does not end within `k` instructions passes the point behind them, and under a limit it
is cut there. -/
theorem exists_cut {k : Nat} (hu : s.machine.stepLimit = none) (hn : s.steps + k = n)
    (hlong : ∀ budget e, s.run budget #[] = some e →
      s.machine.statistics.instructions + k < e.machine.statistics.instructions) :
    ∃ t, s.Reaches t ∧ t.steps = n ∧
      t.machine.statistics.instructions = s.machine.statistics.instructions + k ∧
      ∃ events, (s.withLimit (some n)).run (k + 1) #[] =
        some ⟨.stepLimitReached n, (t.machine.withLimit (some n)).countStepLimit, events⟩ := by
  induction k generalizing s with
  | zero =>
    obtain ⟨i, hi⟩ := exists_fetch_of_run hlong
    have hl : (s.withLimit (some n)).machine.reachedLimit? s.steps = some n := by
      have hle : n ≤ s.steps := by omega
      simp [withLimit, Machine.withLimit, Machine.reachedLimit?, Option.filter, hle]
    have hcut := run_succ_of_ended (Moves.limit (s := s.withLimit (some n)) hi hl).step_eq 0 #[]
    rw [show (s.withLimit (some n)).steps = n from hn] at hcut
    exact ⟨s, .refl, hn, rfl, _, hcut⟩
  | succ k ih =>
    cases s using moves_cases with
    | ended outcome m events hm =>
      have hlt := hlong 1 _ (run_succ_of_ended hm.step_eq 0 #[])
      rcases hm.instructions_eq hu with ⟨_, hi⟩ | hi <;>
        simp only [Progress.machine] at hi hlt <;> omega
    | running next events hm =>
      obtain ⟨hsteps, hi⟩ := hm.instructions_running
      have hnext : next.machine.stepLimit = none := hm.stepLimit_eq.trans hu
      have hrest : ∀ budget e, next.run budget #[] = some e →
          next.machine.statistics.instructions + k < e.machine.statistics.instructions := by
        intro budget e he
        have hlt := hlong _ _ (run_eq_some_of_running hm.step_eq he)
        simp only at hlt
        omega
      obtain ⟨t, hr, hts, hti, last, hcut⟩ := ih hnext (by omega) hrest
      refine ⟨t, hr.head hm.step_eq, hts, by omega, events ++ last, ?_⟩
      exact run_eq_some_of_running (hm.withLimit hu (.inr (by omega))).step_eq hcut

end Scan

namespace Machine

/-- A limit changes nothing about a cycle that executes at most that many instructions, whether it
ends at the end marker or past the last instruction. Any other cycle, also one that would never end,
ends at the limit: it leaves the machine that the unlimited cycle has after just as many instructions,
with one more trip of the limit on its counters and nothing else. -/
theorem cycle_withLimit (m : Machine) (n : Nat) :
    (∀ budget e, (m.withLimit none).cycle budget = some e →
      e.machine.statistics.instructions ≤ m.statistics.instructions + n →
      (m.withLimit (some n)).cycle budget = some (e.withLimit (some n))) ∧
    ((∀ budget e, (m.withLimit none).cycle budget = some e →
        m.statistics.instructions + n < e.machine.statistics.instructions) →
      ∃ s, (m.withLimit none).start.Reaches s ∧ s.steps = n ∧
        ∃ e, (m.withLimit (some n)).cycle (n + 1) = some e ∧
          e.outcome = .stepLimitReached n ∧
          e.machine = (s.machine.withLimit (some n)).countStepLimit ∧
          e.machine.statistics.instructions = m.statistics.instructions + n ∧
          e.machine.statistics.stepLimitTrips = m.statistics.stepLimitTrips + 1 ∧
          e.machine.statistics.ranPastEnd = m.statistics.ranPastEnd) := by
  refine ⟨?_, ?_⟩
  · intro budget e h hn
    exact Scan.run_withLimit (s := (m.withLimit none).start) rfl h hn
  · intro hlong
    obtain ⟨s, hr, hs, hi, events, hcut⟩ :=
      Scan.exists_cut (s := (m.withLimit none).start) rfl (Nat.zero_add n) hlong
    obtain ⟨hends, htrips⟩ := hr.ends_eq
    exact ⟨s, hr, hs, _, hcut, rfl, rfl, hi, congrArg (· + 1) htrips, hends⟩

/-- Three instructions up to the end marker: a limit of three is not noticed, a limit of two is. -/
theorem cycle_withLimit_three :
    let m : Machine :=
      { program := ⟨#[.increment 0, .increment 0, .endOfProgram]⟩, memory := .zero 1 1 }
    (∃ e, (m.withLimit (some 3)).cycle 4 = some e ∧ e.outcome = .completed) ∧
      ∃ e, (m.withLimit (some 2)).cycle 3 = some e ∧ e.outcome = .stepLimitReached 2 ∧
        e.machine.memory.integer? 0 = some 2 := by
  intro m
  have hfree : ((m.withLimit none).cycle 4).map (fun e =>
      (e.outcome, e.machine.statistics.instructions)) = some (.completed, 3) := by decide
  obtain ⟨e, he, hend⟩ := Option.map_eq_some_iff.1 hfree
  obtain ⟨ho, hi⟩ := Prod.mk.inj hend
  refine ⟨⟨_, (m.cycle_withLimit 3).1 4 e he (Nat.le_of_eq hi), ho⟩, ?_⟩
  have hlong : ∀ budget d, (m.withLimit none).cycle budget = some d →
      m.statistics.instructions + 2 < d.machine.statistics.instructions := by
    intro budget d hd
    rw [cycle_unique hd he, hi]
    decide
  obtain ⟨_, _, _, d, hd, hcut, -⟩ := (m.cycle_withLimit 2).2 hlong
  have hmemory : ((m.withLimit (some 2)).cycle 3).bind (·.machine.memory.integer? 0) = some 2 := by
    decide
  rw [hd] at hmemory
  exact ⟨d, hd, hcut, hmemory⟩

end Machine

end LadderMachine
