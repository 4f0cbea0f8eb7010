import LadderMachine.Proofs.Machine.History
import LadderMachine.Proofs.Machine.TwoRuns

/-!
# Cycles one after the other

`ends` lists how cycles end that follow one another, each starting from the machine that the one
before has left, and `gains` what each of them adds to the counters. Two machines that are alike have
such runs of the same length, with the same outcomes and the same gains.
-/

namespace LadderMachine.Machine

variable {R : Memory → Memory → Prop} {m n : Machine} {budget count : Nat} {e : CycleEnd}
  {es : List CycleEnd}

/-- Ends of a number of cycles, oldest first; none if one of them does not end within the budget. -/
def ends (budget : Nat) : Nat → Machine → Option (List CycleEnd)
  | 0, _ => some []
  | count + 1, m =>
    match m.cycle budget with
    | none => none
    | some e => (ends budget count e.machine).map (e :: ·)

def after (m : Machine) (es : List CycleEnd) : Machine := (es.getLast?.map (·.machine)).getD m

/-- What each of the cycles adds to the counters. -/
def gains (m : Machine) : List CycleEnd → List Statistics
  | [] => []
  | e :: es => (e.machine.statistics - m.statistics) :: gains e.machine es

@[simp] theorem after_nil (m : Machine) : m.after [] = m := rfl

@[simp] theorem after_cons (m : Machine) (e : CycleEnd) (es : List CycleEnd) :
    m.after (e :: es) = e.machine.after es := by
  rw [after, after, List.getLast?_cons]
  cases es.getLast? <;> rfl

theorem ends_succ_eq_some_iff : m.ends budget (count + 1) = some es ↔
    ∃ e later, m.cycle budget = some e ∧ e.machine.ends budget count = some later ∧
      es = e :: later := by
  rw [ends]
  cases m.cycle budget with
  | none => simp
  | some e =>
    rw [Option.map_eq_some_iff]
    constructor
    · rintro ⟨later, hlater, rfl⟩
      exact ⟨e, later, rfl, hlater, rfl⟩
    · rintro ⟨d, later, hd, hlater, rfl⟩
      cases hd
      exact ⟨later, hlater, rfl⟩

/-- Running cycles answers how the last of them ended and reports what they have reported. -/
theorem cyclesFrom_eq_ends (budget count : Nat) (last : Option Outcome) (m : Machine)
    (log : Array Event) :
    cyclesFrom budget count last m log = (m.ends budget count).map fun es =>
      ⟨((es.getLast?.map (·.outcome)).or last, m.after es), log.toList ++ es.flatMap (·.events)⟩ := by
  induction count generalizing last m log with
  | zero => simp [cyclesFrom, ends]
  | succ count ih =>
    rw [cyclesFrom, ends]
    cases m.cycle budget with
    | none => rfl
    | some e =>
      simp only [ih, Option.map_map, Function.comp_def, after_cons, List.getLast?_cons,
        List.flatMap_cons, Array.toList_appendList, List.append_assoc]
      congr 1
      funext es
      cases es.getLast? <;> rfl

theorem ends_induct {P : Machine → Prop}
    (step : ∀ {m : Machine} {e : CycleEnd}, m.cycle budget = some e → P m → P e.machine)
    (h : m.ends budget count = some es) (hm : P m) : P (m.after es) := by
  induction count generalizing m es with
  | zero =>
    cases h
    exact hm
  | succ count ih =>
    obtain ⟨e, later, he, hlater, rfl⟩ := ends_succ_eq_some_iff.1 h
    rw [after_cons]
    exact ih hlater (step he hm)

theorem Alike.exists_ends (h : m.Alike R n) (hR : m.program.Respects R)
    (hes : m.ends budget count = some es) :
    ∃ es', n.ends budget count = some es' ∧ es'.map (·.outcome) = es.map (·.outcome) ∧
      n.gains es' = m.gains es ∧ (m.after es).Alike R (n.after es') := by
  induction count generalizing m n es with
  | zero =>
    cases hes
    exact ⟨[], rfl, rfl, rfl, h⟩
  | succ count ih =>
    obtain ⟨e, later, he, hlater, rfl⟩ := ends_succ_eq_some_iff.1 hes
    obtain ⟨e', he', ho, hend, gain, hm, hn⟩ := h.exists_cycle hR he
    have hR' := hR
    rw [← program_eq_of_cycle he] at hR'
    obtain ⟨later', hlater', hos, hgains, hlast⟩ := ih hend hR' hlater
    refine ⟨e' :: later', ends_succ_eq_some_iff.2 ⟨e', later', he', hlater', rfl⟩, ?_, ?_, ?_⟩
    · rw [List.map_cons, List.map_cons, ho, hos]
    · rw [gains, gains, hgains, hm, hn, Statistics.add_sub_cancel_left,
        Statistics.add_sub_cancel_left]
    · rw [after_cons, after_cons]
      exact hlast

end LadderMachine.Machine
