import Mathlib.Tactic.IntervalCases
import LadderMachine.Proofs.Program.WellFormed

/-!
# The first fault of a program

What validation asks for is said on the numbers in the records: which codes jump, which one ends the
program, and in which range an operand has to be. `FaultAt` is the fault of one record, and `Refused`
orders the faults of a program: its length, its end markers, and then the fault of the first record
that has one. `validate_exact` says that a program is accepted or refused in just this way.
-/

namespace LadderMachine

def Within (operand : Int16) (capacity : Nat) : Prop :=
  0 ≤ operand.toInt ∧ operand.toInt < capacity

theorem operandFits_iff_within (operand : Int16) (capacity : Nat) :
    operandFits operand capacity = true ↔ Within operand capacity := by
  rw [operandFits_iff]
  constructor
  · rintro ⟨n, hn, hlt⟩
    have hint : operand.toInt = n := Int.mem_toNat?.1 hn
    exact ⟨by omega, by omega⟩
  · rintro ⟨hle, hlt⟩
    have hint : operand.toInt = operand.toInt.toNat := by omega
    exact ⟨operand.toInt.toNat, Int.mem_toNat?.2 hint, by omega⟩

namespace Instruction

variable {i : Instruction}

/-- Conditionals and jumps, by their codes. -/
def Jumps (i : Instruction) : Prop :=
  (50 ≤ i.code.toInt ∧ i.code.toInt ≤ 57) ∨ i.code.toInt = 60

theorem jumps_of_jumpTarget? {target : Int16} (h : i.decode.jumpTarget? = some target) :
    i.Jumps ∧ i.third = target := by
  unfold decode at h
  cases ho : Opcode.ofCode? i.code with
  | none =>
    rw [ho] at h
    exact absurd h (by simp [Operation.jumpTarget?])
  | some o =>
    rw [ho] at h
    rw [Jumps, ← Opcode.code_of_ofCode? ho]
    cases o <;> simp [Operation.ofOpcode, Operation.jumpTarget?] at h
    all_goals exact ⟨by decide, h⟩

theorem Jumps.jumpTarget?_eq (h : i.Jumps) : i.decode.jumpTarget? = some i.third := by
  unfold decode Opcode.ofCode?
  rcases h with ⟨hle, hge⟩ | h
  · generalize i.code.toInt = code at *
    interval_cases code <;> rfl
  · rw [h]
    rfl

theorem jumpTarget?_decode_eq_some_iff {target : Int16} :
    i.decode.jumpTarget? = some target ↔ i.Jumps ∧ i.third = target := by
  constructor
  · exact jumps_of_jumpTarget?
  · rintro ⟨hj, rfl⟩
    exact hj.jumpTarget?_eq

theorem jumpFits_decode_iff {length : Nat} :
    i.decode.JumpFits length ↔ (i.Jumps → Within i.third length) := by
  unfold Operation.JumpFits
  constructor
  · intro h hj
    exact (operandFits_iff_within _ _).1 (h _ hj.jumpTarget?_eq)
  · intro h target ht
    obtain ⟨hj, rfl⟩ := jumpTarget?_decode_eq_some_iff.1 ht
    exact (operandFits_iff_within _ _).2 (h hj)

end Instruction

def endRecords (instructions : List Instruction) : Nat :=
  instructions.countP fun i => i.code.toInt = 255

theorem endMarkerCount_eq_endRecords (instructions : List Instruction) :
    endMarkerCount instructions = endRecords instructions := by
  unfold endMarkerCount endRecords
  apply List.countP_congr
  intro i _
  have hcode : i.code = Opcode.endOfProgram.code ↔ i.code.toInt = 255 := Int16.toInt_inj.symm
  simp [Instruction.decode_eq_endOfProgram_iff, hcode]

/-- A fault of the record at a pc: a jump to no record, or else the first operand that names no cell. -/
inductive FaultAt (g : Geometry) (instructions : List Instruction) (pc : Nat) : ProgramError → Prop
  | jump {i : Instruction} (hi : instructions[pc]? = some i) (hj : i.Jumps)
      (ht : ¬ Within i.third instructions.length) :
      FaultAt g instructions pc (.jumpOutOfRange pc i.third instructions.length)
  | operand {i : Instruction} {before after : List (Bank × Int16)} {bank : Bank} {address : Int16}
      (hi : instructions[pc]? = some i) (hj : i.Jumps → Within i.third instructions.length)
      (ho : i.decode.operands = before ++ (bank, address) :: after)
      (hb : ∀ o ∈ before, Within o.2 (g.capacity o.1)) (ha : ¬ Within address (g.capacity bank)) :
      FaultAt g instructions pc (.addressOutOfRange pc bank address (g.capacity bank))

/-- Why a program is refused. A fault of a record is named only if no record before it has one. -/
inductive Refused (g : Geometry) (instructions : List Instruction) : ProgramError → Prop
  | tooLarge (hl : g.programCapacity < instructions.length) :
      Refused g instructions (.tooLarge instructions.length g.programCapacity)
  | endMarkers (hl : instructions.length ≤ g.programCapacity) (hc : endRecords instructions ≠ 1) :
      Refused g instructions (.endMarkerCount (endRecords instructions))
  | record {pc : Nat} {e : ProgramError} (hl : instructions.length ≤ g.programCapacity)
      (hc : endRecords instructions = 1) (hf : FaultAt g instructions pc e)
      (hfirst : ∀ k < pc, ∀ e', ¬ FaultAt g instructions k e') : Refused g instructions e

namespace Operation

variable {op : Operation} {g : Geometry} {length pc : Nat} {e : ProgramError}

theorem jumpFault?_eq_some_iff : op.jumpFault? length pc = some e ↔ ∃ target,
    op.jumpTarget? = some target ∧ ¬ Within target length ∧
      .jumpOutOfRange pc target length = e := by
  unfold jumpFault?
  rw [Option.bind_eq_some_iff]
  simp only [← operandFits_iff_within, ite_eq_iff, reduceCtorEq, and_false, false_or,
    Option.some.injEq]

theorem operandFault?_eq_some_iff : op.operandFault? g pc = some e ↔ ∃ before bank address after,
    op.operands = before ++ (bank, address) :: after ∧
      (∀ o ∈ before, Within o.2 (g.capacity o.1)) ∧ ¬ Within address (g.capacity bank) ∧
      .addressOutOfRange pc bank address (g.capacity bank) = e := by
  unfold operandFault?
  rw [List.findSome?_eq_some_iff]
  constructor
  · rintro ⟨before, ⟨bank, address⟩, after, ho, he, hb⟩
    simp only [ite_eq_iff, reduceCtorEq, and_false, false_or, Option.some.injEq] at he
    refine ⟨before, bank, address, after, ho, ?_, ?_, he.2⟩
    · rintro ⟨bank, address⟩ hmem
      rw [← operandFits_iff_within]
      by_contra hn
      have hnone := hb _ hmem
      simp only [if_neg hn, reduceCtorEq] at hnone
    · rw [← operandFits_iff_within]
      exact he.1
  · rintro ⟨before, bank, address, after, ho, hb, ha, rfl⟩
    refine ⟨before, (bank, address), after, ho, ?_, ?_⟩
    · exact if_neg fun hfits => ha ((operandFits_iff_within _ _).1 hfits)
    · intro o hmem
      exact if_pos ((operandFits_iff_within _ _).2 (hb o hmem))

theorem fault?_eq_some_iff : op.fault? g length pc = some e ↔
    op.jumpFault? length pc = some e ∨ op.JumpFits length ∧ op.operandFault? g pc = some e := by
  rw [fault?, Option.or_eq_some_iff, jumpFault?_eq_none_iff]

end Operation

variable {g : Geometry} {instructions : List Instruction} {pc : Nat} {e : ProgramError}

theorem faultAt_iff : FaultAt g instructions pc e ↔ ∃ i, instructions[pc]? = some i ∧
    i.decode.fault? g instructions.length pc = some e := by
  simp only [Operation.fault?_eq_some_iff, Operation.jumpFault?_eq_some_iff,
    Operation.operandFault?_eq_some_iff, Instruction.jumpTarget?_decode_eq_some_iff,
    Instruction.jumpFits_decode_iff]
  constructor
  · intro h
    cases h with
    | @jump i hi hj ht => exact ⟨i, hi, .inl ⟨_, ⟨hj, rfl⟩, ht, rfl⟩⟩
    | @operand i before after bank address hi hj ho hb ha =>
      exact ⟨i, hi, .inr ⟨hj, before, bank, address, after, ho, hb, ha, rfl⟩⟩
  · rintro ⟨i, hi, ⟨_, ⟨hj, rfl⟩, ht, rfl⟩ | ⟨hj, before, bank, address, after, ho, hb, ha, rfl⟩⟩
    · exact .jump hi hj ht
    · exact .operand hi hj ho hb ha

section Indexed

variable {α β : Type} {f : α × Nat → Option β} {b : β}

/-- What is found in an indexed list is found at the first index that has an answer. -/
theorem findSome?_zipIdx_eq_some_iff {l : List α} {start : Nat} :
    (l.zipIdx start).findSome? f = some b ↔
      ∃ n, (∃ a, l[n]? = some a ∧ f (a, start + n) = some b) ∧
        ∀ k < n, ∀ a, l[k]? = some a → f (a, start + k) = none := by
  induction l generalizing start with
  | nil => simp
  | cons d rest ih =>
    rw [List.zipIdx_cons, List.findSome?_cons]
    cases hd : f (d, start) with
    | some c =>
      simp only [Option.some.injEq]
      constructor
      · rintro rfl
        exact ⟨0, ⟨d, rfl, hd⟩, fun k hk => absurd hk (Nat.not_lt_zero k)⟩
      · rintro ⟨n, ⟨a, ha, hb⟩, hfirst⟩
        cases n with
        | zero =>
          cases ha
          exact Option.some.inj (hd.symm.trans hb)
        | succ n =>
          have hnone := hfirst 0 (Nat.succ_pos n) d rfl
          rw [Nat.add_zero, hd] at hnone
          cases hnone
    | none =>
      rw [ih]
      constructor
      · rintro ⟨n, ⟨a, ha, hb⟩, hfirst⟩
        refine ⟨n + 1, ⟨a, ha, by rwa [← Nat.add_right_comm] at hb⟩, ?_⟩
        intro k hk c hc
        cases k with
        | zero =>
          cases hc
          exact hd
        | succ k =>
          have hnone := hfirst k (by omega) c hc
          rwa [Nat.add_right_comm] at hnone
      · rintro ⟨n, ⟨a, ha, hb⟩, hfirst⟩
        cases n with
        | zero =>
          cases ha
          rw [Nat.add_zero, hd] at hb
          cases hb
        | succ n =>
          refine ⟨n, ⟨a, ha, by rwa [← Nat.add_right_comm]⟩, ?_⟩
          intro k hk c hc
          have hnone := hfirst (k + 1) (by omega) c hc
          rwa [← Nat.add_right_comm]

end Indexed

theorem firstFault?_eq_some_iff : firstFault? g instructions = some e ↔
    ∃ pc, FaultAt g instructions pc e ∧ ∀ k < pc, ∀ e', ¬ FaultAt g instructions k e' := by
  rw [firstFault?, findSome?_zipIdx_eq_some_iff]
  simp only [faultAt_iff, Nat.zero_add]
  apply exists_congr
  intro pc
  apply and_congr_right
  intro _
  constructor
  · rintro hfirst k hk e' ⟨i, hi, he'⟩
    rw [hfirst k hk i hi] at he'
    cases he'
  · intro hfirst k hk i hi
    by_contra hsome
    obtain ⟨e', he'⟩ := Option.ne_none_iff_exists'.1 hsome
    exact hfirst k hk e' ⟨i, hi, he'⟩

theorem operandsFit_iff {op : Operation} :
    op.OperandsFit g.capacity ↔ ∀ o ∈ op.operands, Within o.2 (g.capacity o.1) :=
  forall₂_congr fun _ _ => operandFits_iff_within _ _

theorem wellFormed_iff : WellFormed g instructions ↔
    instructions.length ≤ g.programCapacity ∧ endRecords instructions = 1 ∧
      (∀ i ∈ instructions, i.Jumps → Within i.third instructions.length) ∧
      ∀ i ∈ instructions, ∀ o ∈ i.decode.operands, Within o.2 (g.capacity o.1) := by
  rw [← endMarkerCount_eq_endRecords]
  constructor
  · rintro ⟨hl, hc, hj, ho⟩
    refine ⟨hl, hc, ?_, ?_⟩
    · intro i hi
      exact Instruction.jumpFits_decode_iff.1 (hj i hi)
    · intro i hi
      exact operandsFit_iff.1 (ho i hi)
  · rintro ⟨hl, hc, hj, ho⟩
    refine ⟨hl, hc, ?_, ?_⟩
    · intro i hi
      exact Instruction.jumpFits_decode_iff.2 (hj i hi)
    · intro i hi
      exact operandsFit_iff.2 (ho i hi)

namespace Program

theorem refused_of_validate (h : validate instructions g = .error e) :
    Refused g instructions e := by
  unfold validate at h
  rw [endMarkerCount_eq_endRecords] at h
  split_ifs at h with hl hc
  · cases h
    exact .tooLarge hl
  · cases h
    exact .endMarkers (Nat.not_lt.1 hl) hc
  · split at h
    · next fault hf =>
      cases h
      obtain ⟨pc, hfault, hfirst⟩ := firstFault?_eq_some_iff.1 hf
      exact .record (Nat.not_lt.1 hl) (not_not.1 hc) hfault hfirst
    · cases h

theorem validate_of_refused (h : Refused g instructions e) :
    validate instructions g = .error e := by
  unfold validate
  rw [endMarkerCount_eq_endRecords]
  cases h with
  | tooLarge hl => exact if_pos hl
  | endMarkers hl hc => rw [if_neg (Nat.not_lt.2 hl), if_pos hc]
  | record hl hc hf hfirst =>
    rw [if_neg (Nat.not_lt.2 hl), if_neg (not_not.2 hc), firstFault?_eq_some_iff.2 ⟨_, hf, hfirst⟩]

/-- A program is accepted as it is exactly if its records are in order, and refused otherwise with the
first fault: a bad jump comes before a bad operand of the same record, and a fault of a record before
those of the records behind it. -/
theorem validate_exact (instructions : List Instruction) (g : Geometry) :
    (∀ p, validate instructions g = .ok p ↔ p.instructions.toList = instructions ∧
      instructions.length ≤ g.programCapacity ∧ endRecords instructions = 1 ∧
      (∀ i ∈ instructions, i.Jumps → Within i.third instructions.length) ∧
      ∀ i ∈ instructions, ∀ o ∈ i.decode.operands, Within o.2 (g.capacity o.1)) ∧
    ∀ e, validate instructions g = .error e ↔ Refused g instructions e := by
  constructor
  · intro p
    rw [validate_eq_ok_iff, wellFormed_iff]
  · intro e
    exact ⟨refused_of_validate, validate_of_refused⟩

/-- The bad jump of the first record is named, not its bad operand and not the fault behind it. -/
example : validate [⟨50, 999, 0, 9, 0⟩, ⟨1, -1, 0, 0, 0⟩, ⟨255, 0, 0, 0, 0⟩] {} =
    .error (.jumpOutOfRange 0 9 3) := by decide

end Program

end LadderMachine
