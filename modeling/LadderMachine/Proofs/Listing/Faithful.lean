import LadderMachine.Proofs.Listing.Words
import LadderMachine.Proofs.Machine.SameOperations
import LadderMachine.Proofs.Program.WellFormed
import LadderMachine.Proofs.Text.Lines

/-!
# What a listing tells

The text of an instruction tells the operation that it decodes to, and no more. The printed listing of
a program tells the operations up to and including the first end marker, since its lines can be told
from the text. Where the end marker is the last instruction this is all that the machine uses, so
programs with the same printed listing run alike.
-/

namespace LadderMachine

theorem Instruction.text_eq_iff (i j : Instruction) : i.text = j.text ↔ i.decode = j.decode :=
  ⟨Operation.text_inj, congrArg Operation.text⟩

/-- What a listing shows of some instructions: those up to and including the first end marker, and all
of them if there is none. -/
inductive Shown (instructions : List Instruction) : List Instruction → Prop
  | ending {before rest : List Instruction} {last : Instruction}
      (h : instructions = before ++ last :: rest)
      (hbefore : ∀ i ∈ before, i.decode ≠ .endOfProgram) (hlast : last.decode = .endOfProgram) :
    Shown instructions (before ++ [last])
  | whole (h : ∀ i ∈ instructions, i.decode ≠ .endOfProgram) : Shown instructions instructions

section Shown

variable {instructions shown : List Instruction} {i : Instruction}

theorem Shown.cons (h : Shown instructions shown) (hi : i.decode ≠ .endOfProgram) :
    Shown (i :: instructions) (i :: shown) := by
  cases h with
  | ending h hbefore hlast =>
    exact .ending (congrArg (i :: ·) h) (List.forall_mem_cons.2 ⟨hi, hbefore⟩) hlast
  | whole h => exact .whole (List.forall_mem_cons.2 ⟨hi, h⟩)

theorem shown_throughEnd (instructions : List Instruction) :
    Shown instructions (throughEnd instructions) := by
  induction instructions with
  | nil => exact .whole (by simp)
  | cons i rest ih =>
    rw [throughEnd]
    split
    · next hi => exact .ending (List.nil_append _).symm (by simp) hi
    · next hi => exact ih.cons hi

theorem throughEnd_of_forall_ne {before : List Instruction} (rest : List Instruction)
    (h : ∀ i ∈ before, i.decode ≠ .endOfProgram) :
    throughEnd (before ++ rest) = before ++ throughEnd rest := by
  induction before with
  | nil => rfl
  | cons i before ih =>
    obtain ⟨hi, hbefore⟩ := List.forall_mem_cons.1 h
    rw [List.cons_append, throughEnd, if_neg hi, ih hbefore]
    rfl

theorem Shown.eq_throughEnd (h : Shown instructions shown) : shown = throughEnd instructions := by
  cases h with
  | @ending before rest last h hbefore hlast =>
    rw [h, throughEnd_of_forall_ne _ hbefore, throughEnd, if_pos hlast]
  | whole h =>
    have hall := throughEnd_of_forall_ne [] h
    rw [List.append_nil] at hall
    exact (hall.trans (List.append_nil _)).symm

end Shown

namespace Listing

variable {is js : List Instruction}

theorem toList_text (l : Listing) : l.text.toList = Text.unlines (l.lines.map String.toList) :=
  Text.toList_join_feeds l.lines

theorem feed_not_mem_line (pc : Nat) (i : Instruction) : '\n' ∉ (line pc i).toList := by
  intro h
  rw [line, String.toList_append, String.toList_append] at h
  rcases List.mem_append.1 h with h | h
  · rcases List.mem_append.1 h with h | h
    · exact absurd (solid_hexadecimal 3 pc '\n' h) (by decide)
    · exact absurd h (by decide)
  · exact i.decode.feed_not_mem_text h

theorem feed_not_mem_lines (is : List Instruction) :
    ∀ l ∈ (ofInstructions is).lines.map String.toList, '\n' ∉ l := by
  intro l hl
  obtain ⟨s, hs, rfl⟩ := List.mem_map.1 hl
  obtain ⟨pc, hpc, rfl⟩ := List.exists_of_mem_mapIdx hs
  exact feed_not_mem_line pc _

theorem line_inj {pc : Nat} {i j : Instruction} : line pc i = line pc j ↔ i.decode = j.decode := by
  rw [line, line, ← Instruction.text_eq_iff]
  exact String.append_right_inj _

/-- The lines of two listings are the same if the instructions are, operation by operation. -/
theorem mapIdx_line_eq_iff :
    is.mapIdx line = js.mapIdx line ↔ List.Forall₂ (fun i j => i.decode = j.decode) is js := by
  rw [List.forall₂_iff_get]
  constructor
  · intro h
    have hlen : is.length = js.length := by
      simpa using congrArg List.length h
    refine ⟨hlen, fun n hi hj => ?_⟩
    have hline := congrArg (·[n]?) h
    rw [List.getElem?_mapIdx, List.getElem?_mapIdx, List.getElem?_eq_getElem hi,
      List.getElem?_eq_getElem hj] at hline
    exact line_inj.1 (Option.some.inj hline)
  · rintro ⟨hlen, h⟩
    refine List.ext_getElem (by simpa using hlen) ?_
    intro n hi hj
    rw [List.length_mapIdx] at hi hj
    rw [List.getElem_mapIdx, List.getElem_mapIdx]
    exact line_inj.2 (h n hi hj)

theorem badCodes_eq (is : List Instruction) : (ofInstructions is).badCodes =
    (throughEnd is).countP fun i => ∃ code, i.decode = .unsupported code := by
  refine List.countP_congr fun i _ => ?_
  rw [decide_eq_true_iff, Operation.isUnsupported_iff]

theorem text_eq_iff : (ofInstructions is).text = (ofInstructions js).text ↔
    List.Forall₂ (fun i j => i.decode = j.decode) (throughEnd is) (throughEnd js) := by
  rw [← mapIdx_line_eq_iff]
  constructor
  · intro h
    have hlines := Text.unlines_inj (feed_not_mem_lines is) (feed_not_mem_lines js)
      (by rw [← toList_text, h, toList_text])
    exact (List.map_inj_right fun _ _ => String.toList_injective).1 hlines
  · intro h
    rw [text, text]
    exact congrArg (fun ls : List String => String.join (ls.map (· ++ "\n"))) h

end Listing

/-- The last instruction is an end marker. -/
def Program.EndsLast (p : Program) : Prop :=
  ∃ last, p.instructions.toList.getLast? = some last ∧ last.decode = .endOfProgram

/-- Nothing of an accepted program stands behind its end marker if that is the last instruction. -/
theorem Program.Accepted.throughEnd_eq {p : Program} (h : p.Accepted) (hlast : p.EndsLast) :
    throughEnd p.instructions.toList = p.instructions.toList := by
  obtain ⟨g, instructions, hv⟩ := h
  obtain ⟨rfl, hw⟩ := validate_eq_ok_iff.1 hv
  obtain ⟨last, hl, hend⟩ := hlast
  obtain ⟨before, hp⟩ := List.getLast?_eq_some_iff.1 hl
  have hcount := hw.endMarkerCount_eq
  rw [hp, endMarkerCount, List.countP_append, List.countP_singleton, if_pos (decide_eq_true hend)]
    at hcount
  have hnone : before.countP (fun i => i.decode = .endOfProgram) = 0 := by omega
  have hbefore : ∀ i ∈ before, i.decode ≠ .endOfProgram := by
    simpa using List.countP_eq_zero.1 hnone
  rw [hp, throughEnd_of_forall_ne _ hbefore, throughEnd, if_pos hend]

/-- The text of an instruction tells its operation, and a printed listing the operations that it shows.
Where the end marker stands last, these settle every run of the program. -/
theorem listing_tells_operations :
    (∀ i j : Instruction, i.text = j.text ↔ i.decode = j.decode) ∧
    (∀ is, ∃ shown, Shown is shown) ∧
    (∀ is js shown shown', Shown is shown → Shown js shown' →
      ((Listing.ofInstructions is).text = (Listing.ofInstructions js).text ↔
        List.Forall₂ (fun i j => i.decode = j.decode) shown shown') ∧
      (Listing.ofInstructions is).badCodes =
        shown.countP fun i => ∃ code, i.decode = .unsupported code) ∧
    ∀ m n : Machine, m.program.Accepted → n.program.Accepted → m.program.EndsLast →
      n.program.EndsLast → m.program.listing.text = n.program.listing.text →
      n.memory = m.memory → n.stepLimit = m.stepLimit → n.statistics = m.statistics →
      ∀ budget count, (m.ends budget count).map (·.map CycleEnd.result) =
        (n.ends budget count).map (·.map CycleEnd.result) := by
  refine ⟨Instruction.text_eq_iff, fun is => ⟨_, shown_throughEnd is⟩, ?_, ?_⟩
  · intro is js shown shown' his hjs
    rw [his.eq_throughEnd, hjs.eq_throughEnd]
    exact ⟨Listing.text_eq_iff, Listing.badCodes_eq is⟩
  · intro m n hm hn hml hnl htext hmemory hlimit hstatistics budget count
    have hoperations : m.program.SameOperations n.program := by
      have h := Listing.text_eq_iff.1 htext
      rwa [hm.throughEnd_eq hml, hn.throughEnd_eq hnl] at h
    have htwins : m.Twins n := ⟨hoperations, hlimit, hmemory, hstatistics⟩
    exact htwins.results_eq budget count

/-- Records that differ in a field without meaning have the same listing, and so they run alike. -/
theorem listing_tells_operations_unused_field :
    Listing.text (.ofInstructions [⟨4, 0, 7, 0, -5⟩, ⟨255, 0, 0, 0, 0⟩]) =
        Listing.text (.ofInstructions [⟨4, 0, 0, 9, -5⟩, ⟨255, 1, 0, 0, 0⟩]) ∧
      (Listing.ofInstructions [⟨4, 0, 7, 0, -5⟩, ⟨255, 0, 0, 0, 0⟩]).badCodes = 0 ∧
      (Machine.ends 3 2
        { program := ⟨#[⟨4, 0, 0, 9, -5⟩, ⟨255, 1, 0, 0, 0⟩]⟩
          memory := .zero 1 1
          stepLimit := some 2 }).map (·.map CycleEnd.result) =
        some [(.completed, ⟨#[false], #[-5]⟩, { cycles := 1, instructions := 2 }),
          (.completed, ⟨#[false], #[-5]⟩, { cycles := 2, instructions := 4 })] := by
  obtain ⟨-, -, hshown, hruns⟩ := listing_tells_operations
  have hp := hshown [⟨4, 0, 7, 0, -5⟩, ⟨255, 0, 0, 0, 0⟩] [⟨4, 0, 0, 9, -5⟩, ⟨255, 1, 0, 0, 0⟩] _ _
    (@Shown.ending _ [⟨4, 0, 7, 0, -5⟩] [] _ rfl (by decide) (by decide))
    (@Shown.ending _ [⟨4, 0, 0, 9, -5⟩] [] _ rfl (by decide) (by decide))
  have htext := hp.1.2 (.cons rfl (.cons rfl .nil))
  have h₁ : Program.validate [⟨4, 0, 0, 9, -5⟩, ⟨255, 1, 0, 0, 0⟩] {} =
      .ok ⟨#[⟨4, 0, 0, 9, -5⟩, ⟨255, 1, 0, 0, 0⟩]⟩ := rfl
  have h₂ : Program.validate [⟨4, 0, 7, 0, -5⟩, ⟨255, 0, 0, 0, 0⟩] {} =
      .ok ⟨#[⟨4, 0, 7, 0, -5⟩, ⟨255, 0, 0, 0, 0⟩]⟩ := rfl
  have hrun := hruns
    { program := ⟨#[⟨4, 0, 0, 9, -5⟩, ⟨255, 1, 0, 0, 0⟩]⟩, memory := .zero 1 1, stepLimit := some 2 }
    { program := ⟨#[⟨4, 0, 7, 0, -5⟩, ⟨255, 0, 0, 0, 0⟩]⟩, memory := .zero 1 1, stepLimit := some 2 }
    ⟨_, _, h₁⟩ ⟨_, _, h₂⟩ ⟨_, rfl, rfl⟩ ⟨_, rfl, rfl⟩ htext.symm rfl rfl rfl 3 2
  exact ⟨htext, hp.2, hrun.trans rfl⟩

end LadderMachine
