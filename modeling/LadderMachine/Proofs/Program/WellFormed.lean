import Mathlib.Data.List.Basic
import LadderMachine.Program

/-!
# Well-formed programs

`WellFormed` says what `Program.validate` asks of an instruction list, without the order in which it
looks for faults, and `validate_eq_ok_iff` that nothing else is asked. `Accepted` programs are those
that some geometry lets through; the capacities of that geometry are all that memory has to offer.
-/

namespace LadderMachine

namespace Operation

variable {op : Operation}

def JumpFits (op : Operation) (length : Nat) : Prop :=
  ∀ target, op.jumpTarget? = some target → operandFits target length = true

/-- Every memory operand names a cell of its bank. -/
def OperandsFit (op : Operation) (capacity : Bank → Nat) : Prop :=
  ∀ o ∈ op.operands, operandFits o.2 (capacity o.1) = true

theorem jumpFault?_eq_none_iff (length pc : Nat) :
    op.jumpFault? length pc = none ↔ op.JumpFits length := by
  unfold jumpFault? JumpFits
  cases op.jumpTarget? with
  | none => simp
  | some target => simp

theorem operandFault?_eq_none_iff (g : Geometry) (pc : Nat) :
    op.operandFault? g pc = none ↔ op.OperandsFit g.capacity := by
  unfold operandFault? OperandsFit
  rw [List.findSome?_eq_none_iff]
  constructor
  · intro h o ho
    have hf := h o ho
    by_contra hn
    simp [hn] at hf
  · intro h o ho
    simp [h o ho]

theorem fault?_eq_none_iff (g : Geometry) (length pc : Nat) :
    op.fault? g length pc = none ↔ op.JumpFits length ∧ op.OperandsFit g.capacity := by
  rw [fault?, Option.or_eq_none_iff, jumpFault?_eq_none_iff, operandFault?_eq_none_iff]

theorem OperandsFit.mono {small large : Bank → Nat} (h : op.OperandsFit small)
    (hle : ∀ b, small b ≤ large b) : op.OperandsFit large := by
  intro o ho
  obtain ⟨n, hn, hlt⟩ := (operandFits_iff _ _).1 (h o ho)
  exact (operandFits_iff _ _).2 ⟨n, hn, Nat.lt_of_lt_of_le hlt (hle _)⟩

end Operation

/-- The instructions fit the geometry: slots, a single end marker, jumps and memory operands. -/
structure WellFormed (g : Geometry) (instructions : List Instruction) : Prop where
  length_le : instructions.length ≤ g.programCapacity
  endMarkerCount_eq : endMarkerCount instructions = 1
  jumps : ∀ i ∈ instructions, i.decode.JumpFits instructions.length
  operands : ∀ i ∈ instructions, i.decode.OperandsFit g.capacity

theorem firstFault?_eq_none_iff (g : Geometry) (instructions : List Instruction) :
    firstFault? g instructions = none ↔
      ∀ i ∈ instructions, i.decode.JumpFits instructions.length ∧ i.decode.OperandsFit g.capacity := by
  rw [firstFault?, List.findSome?_eq_none_iff]
  constructor
  · intro h i hi
    obtain ⟨pc, hpc, rfl⟩ := List.getElem_of_mem hi
    exact (Operation.fault?_eq_none_iff g _ pc).1
      (h (instructions[pc], pc) (List.mk_mem_zipIdx_iff_getElem?.2 (List.getElem?_eq_getElem hpc)))
  · rintro h ⟨i, pc⟩ hi
    exact (Operation.fault?_eq_none_iff g _ pc).2 (h i (List.fst_mem_of_mem_zipIdx hi))

/-- A well-formed program holds an end marker, so it is not empty. -/
theorem WellFormed.length_pos {g : Geometry} {instructions : List Instruction}
    (h : WellFormed g instructions) : 0 < instructions.length := by
  have hc := h.endMarkerCount_eq
  have hle : endMarkerCount instructions ≤ instructions.length := List.countP_le_length
  omega

namespace Program

/-- Validation asks for a well-formed instruction list and keeps it as it is. -/
theorem validate_eq_ok_iff {instructions : List Instruction} {g : Geometry} {p : Program} :
    validate instructions g = .ok p ↔
      p.instructions.toList = instructions ∧ WellFormed g instructions := by
  constructor
  · intro h
    refine ⟨instructions_of_validate h, ?_⟩
    unfold validate at h
    split_ifs at h with hl hc
    cases hf : firstFault? g instructions with
    | some fault => simp [hf] at h
    | none =>
      have hall := (firstFault?_eq_none_iff g instructions).1 hf
      exact ⟨Nat.not_lt.1 hl, not_not.1 hc, fun i hi => (hall i hi).1, fun i hi => (hall i hi).2⟩
  · rintro ⟨rfl, hl, hc, hj, ho⟩
    have hf := (firstFault?_eq_none_iff g _).2 fun i hi => ⟨hj i hi, ho i hi⟩
    rw [validate, if_neg (Nat.not_lt.2 hl), if_neg (not_not.2 hc), hf]

theorem exists_validate_eq_ok_iff {instructions : List Instruction} {g : Geometry} :
    (∃ p, validate instructions g = .ok p) ↔ WellFormed g instructions := by
  constructor
  · rintro ⟨p, hp⟩
    exact (validate_eq_ok_iff.1 hp).2
  · intro h
    exact ⟨⟨instructions.toArray⟩, validate_eq_ok_iff.2 ⟨rfl, h⟩⟩

/-- Some geometry lets the program through. -/
def Accepted (p : Program) : Prop := ∃ g instructions, validate instructions g = .ok p

/-- A geometry with banks no larger than the given ones lets the program through. -/
def AcceptedWithin (p : Program) (capacity : Bank → Nat) : Prop :=
  ∃ g instructions, validate instructions g = .ok p ∧ ∀ b, g.capacity b ≤ capacity b

variable {p : Program} {i : Instruction} {pc : Nat}

theorem AcceptedWithin.accepted {capacity : Bank → Nat} (h : p.AcceptedWithin capacity) :
    p.Accepted := by
  obtain ⟨g, instructions, hv, _⟩ := h
  exact ⟨g, instructions, hv⟩

theorem Accepted.length_pos (h : p.Accepted) : 0 < p.length := by
  obtain ⟨g, instructions, hv⟩ := h
  obtain ⟨rfl, hw⟩ := validate_eq_ok_iff.1 hv
  exact hw.length_pos

theorem mem_of_fetch? (h : p.fetch? pc = some i) : i ∈ p.instructions.toList :=
  Array.mem_toList_iff.2 (Array.mem_of_getElem? h)

theorem lt_length_of_fetch? (h : p.fetch? pc = some i) : pc < p.length :=
  (Array.getElem?_eq_some_iff.1 h).1

theorem fetch?_eq_none_iff : p.fetch? pc = none ↔ p.length ≤ pc := Array.getElem?_eq_none_iff

theorem Accepted.jumpFits (h : p.Accepted) (hi : p.fetch? pc = some i) :
    i.decode.JumpFits p.length := by
  obtain ⟨g, instructions, hv⟩ := h
  obtain ⟨rfl, hw⟩ := validate_eq_ok_iff.1 hv
  exact hw.jumps i (mem_of_fetch? hi)

theorem AcceptedWithin.operandsFit {capacity : Bank → Nat} (h : p.AcceptedWithin capacity)
    (hi : p.fetch? pc = some i) : i.decode.OperandsFit capacity := by
  obtain ⟨g, instructions, hv, hle⟩ := h
  obtain ⟨rfl, hw⟩ := validate_eq_ok_iff.1 hv
  exact (hw.operands i (mem_of_fetch? hi)).mono hle

end Program

end LadderMachine
