import LadderMachine.Proofs.Container.Acceptance
import LadderMachine.Proofs.Program.FirstFault

/-!
# The first faulty line

A container is read from its first line on, and the first line with a fault ends the reading. So an
error that names a line depends on the lines up to that one only, and the lines before it have no
fault among them. The program is validated when all lines have been taken in, and a text is truncated
only if nothing but records stands behind its signature.
-/

namespace LadderMachine

/-- Number of the line with the fault. With so many slots for records behind the signature, the line
behind the last slot is the one that asks for too many. -/
def LoadError.line? (capacity : Nat) : LoadError → Option Nat
  | badRecordLength line _ => some line
  | badHexDigit line _ => some line
  | malformedMapping line _ => some line
  | mappingOutOfRange line _ _ _ _ => some line
  | invalidCycleTime line _ => some line
  | programTooLarge _ => some (capacity + 2)
  | unreadable _ _ => none
  | notText _ => none
  | badSignature => none
  | truncated => none
  | program _ => none

namespace Container

/-- What is read from lines that have no fault among them. -/
inductive Faultless : Except LoadError Image → Prop
  | ok (image : Image) : Faultless (.ok image)
  | truncated : Faultless (.error .truncated)
  | program (e : ProgramError) : Faultless (.error (.program e))

section Code

variable {capacity count number : Nat} {line : List Char} {ls rest : List (List Char)}
  {code : CodeSection} {e : LoadError}

theorem line?_of_readCycleTime {suffix : List Char}
    (h : readCycleTime number line suffix = .error e) : e.line? capacity = some number := by
  unfold readCycleTime at h
  split at h
  · cases h
  · cases h
    rfl

theorem line?_of_readRecord (h : readRecord number line = .error e) :
    e.line? capacity = some number := by
  unfold readRecord at h
  split at h
  · cases h
  · cases h
    rfl
  · cases h
    rfl

inductive CodeLine
  | record (i : Instruction)
  | last (bank : Bank) (time : Option UInt64)

def readCodeLine (capacity count number : Nat) (line : List Char) : Except LoadError CodeLine :=
  match Line.classify line with
  | .heading bank => .ok (.last bank none)
  | .cycle suffix =>
    match readCycleTime number line suffix with
    | .error e => .error e
    | .ok time => .ok (.last .bit time)
  | _ =>
    if count = capacity then .error (.programTooLarge capacity)
    else match readRecord number line with
      | .error e => .error e
      | .ok i => .ok (.record i)

theorem readCode_cons : readCode capacity count number (line :: rest) =
    match readCodeLine capacity count number line with
    | .error e => .error e
    | .ok (.last bank time) => .ok ⟨[], bank, time, number + 1, rest⟩
    | .ok (.record i) =>
      match readCode capacity (count + 1) (number + 1) rest with
      | .error e => .error e
      | .ok code => .ok { code with instructions := i :: code.instructions } := by
  rw [readCode, readCodeLine]
  cases Line.classify line with
  | heading bank => rfl
  | cycle suffix =>
    simp only
    cases readCycleTime number line suffix <;> rfl
  | blank | sentinel | data =>
    by_cases hc : count = capacity
    · simp only [if_pos hc]
    · simp only [if_neg hc]
      cases readRecord number line <;> rfl

theorem readCode_cons_eq_error_iff : readCode capacity count number (line :: rest) = .error e ↔
    readCodeLine capacity count number line = .error e ∨
      ∃ i, readCodeLine capacity count number line = .ok (.record i) ∧
        readCode capacity (count + 1) (number + 1) rest = .error e := by
  rw [readCode_cons]
  cases readCodeLine capacity count number line with
  | error e' => simp
  | ok known =>
    cases known with
    | last bank time => simp
    | record i => cases readCode capacity (count + 1) (number + 1) rest <;> simp

theorem readCode_cons_eq_ok_iff : readCode capacity count number (line :: rest) = .ok code ↔
    (∃ bank time, readCodeLine capacity count number line = .ok (.last bank time) ∧
      ⟨[], bank, time, number + 1, rest⟩ = code) ∨
      ∃ i inner, readCodeLine capacity count number line = .ok (.record i) ∧
        readCode capacity (count + 1) (number + 1) rest = .ok inner ∧
        { inner with instructions := i :: inner.instructions } = code := by
  rw [readCode_cons]
  cases readCodeLine capacity count number line with
  | error e' => simp
  | ok known =>
    cases known with
    | last bank time => simp
    | record i => cases readCode capacity (count + 1) (number + 1) rest <;> simp

theorem line?_of_readCodeLine (hn : number = count + 2)
    (h : readCodeLine capacity count number line = .error e) : e.line? capacity = some number := by
  unfold readCodeLine at h
  split at h
  · cases h
  · split at h
    · next ht =>
      cases h
      exact line?_of_readCycleTime ht
    · cases h
  · split_ifs at h with hc
    · cases h
      rw [LoadError.line?, hn, hc]
    · split at h
      · next hr =>
        cases h
        exact line?_of_readRecord hr
      · cases h

/-- An error among the records is that of one line: the lines before it have none, and the lines behind
it are not looked at. -/
theorem exists_faulty_of_readCode (hn : number = count + 2)
    (h : readCode capacity count number ls = .error e) (ht : e ≠ .truncated) :
    ∃ before line after, ls = before ++ line :: after ∧
      e.line? capacity = some (number + before.length) ∧
      (∀ rest, readCode capacity count number (before ++ line :: rest) = .error e) ∧
      readCode capacity count number before = .error .truncated := by
  induction ls generalizing count number with
  | nil =>
    cases h
    exact absurd rfl ht
  | cons line after ih =>
    rcases readCode_cons_eq_error_iff.1 h with hline | ⟨i, hline, hrest⟩
    · refine ⟨[], line, after, rfl, line?_of_readCodeLine hn hline, ?_, rfl⟩
      intro rest
      exact readCode_cons_eq_error_iff.2 (.inl hline)
    · obtain ⟨before, faulty, after, rfl, hnumber, hsame, hbefore⟩ := ih (by omega) hrest
      refine ⟨line :: before, faulty, after, rfl, ?_, ?_, ?_⟩
      · rw [hnumber, List.length_cons]
        congr 1
        omega
      · intro rest
        exact readCode_cons_eq_error_iff.2 (.inr ⟨i, hline, hsame rest⟩)
      · exact readCode_cons_eq_error_iff.2 (.inr ⟨i, hline, hbefore⟩)

theorem exists_head_of_readCode (h : readCode capacity count number ls = .ok code) :
    ∃ head, ls = head ++ code.rest ∧ code.next = number + head.length ∧
      ∀ rest, readCode capacity count number (head ++ rest) = .ok { code with rest } := by
  induction ls generalizing count number code with
  | nil => cases h
  | cons line after ih =>
    rcases readCode_cons_eq_ok_iff.1 h with ⟨bank, time, hline, rfl⟩ | ⟨i, inner, hline, hrest, rfl⟩
    · refine ⟨[line], rfl, rfl, ?_⟩
      intro rest
      exact readCode_cons_eq_ok_iff.2 (.inl ⟨bank, time, hline, rfl⟩)
    · obtain ⟨head, rfl, hnext, hsame⟩ := ih hrest
      refine ⟨line :: head, rfl, ?_, ?_⟩
      · rw [List.length_cons]
        simp only
        omega
      · intro rest
        exact readCode_cons_eq_ok_iff.2 (.inr ⟨i, _, hline, hsame rest, rfl⟩)

theorem readCodeLine_eq_record_iff {i : Instruction} :
    readCodeLine capacity count number line = .ok (.record i) ↔
      count ≠ capacity ∧ Instruction.Spells line i := by
  constructor
  · intro h
    unfold readCodeLine at h
    split at h
    · cases h
    · split at h
      · cases h
      · cases h
    · split_ifs at h with hc
      split at h
      · cases h
      · next hr =>
        cases h
        exact ⟨hc, readRecord_eq_ok_iff.1 hr⟩
  · rintro ⟨hc, hs⟩
    simp only [readCodeLine, classify_of_form (form_of_spells hs), if_neg hc,
      readRecord_eq_ok_iff.2 hs]

/-- The text ends among the records exactly if all its lines are records that have a slot. -/
theorem readCode_eq_truncated_iff (hc : count ≤ capacity) (hn : number = count + 2) :
    readCode capacity count number ls = .error .truncated ↔
      ∃ instructions, List.Forall₂ Instruction.Spells ls instructions ∧
        count + ls.length ≤ capacity := by
  induction ls generalizing count number with
  | nil => exact ⟨fun _ => ⟨[], .nil, hc⟩, fun _ => rfl⟩
  | cons line rest ih =>
    rw [readCode_cons_eq_error_iff, List.length_cons]
    constructor
    · rintro (hline | ⟨i, hline, hrest⟩)
      · -- The error of a line names that line, and this one names none.
        cases line?_of_readCodeLine hn hline
      · obtain ⟨hne, hs⟩ := readCodeLine_eq_record_iff.1 hline
        obtain ⟨instructions, hrecords, hlen⟩ := (ih (by omega) (by omega)).1 hrest
        exact ⟨i :: instructions, .cons hs hrecords, by omega⟩
    · rintro ⟨instructions, hs, hlen⟩
      cases hs with
      | @cons _ i _ instructions hi hrecords =>
        refine .inr ⟨i, readCodeLine_eq_record_iff.2 ⟨by omega, hi⟩, ?_⟩
        exact (ih (by omega) (by omega)).2 ⟨instructions, hrecords, by omega⟩

end Code

namespace Metadata

variable {g : Geometry} {number : Nat} {line : List Char} {ls : List (List Char)} {s : Metadata}
  {e : LoadError}

theorem line?_of_readLine (capacity : Nat) (h : s.readLine g number line = .error e) :
    e.line? capacity = some number := by
  unfold readLine at h
  split at h
  · cases h
  · cases h
  · split at h
    · next ht =>
      cases h
      exact line?_of_readCycleTime ht
    · cases h
  · cases h
  · unfold readMapping at h
    split at h
    · cases h
      rfl
    · simp only at h
      split_ifs at h
      cases h
      rfl

/-- An error behind the records is that of one line, too. What was reported before it is kept. -/
theorem exists_faulty_of_readLines (capacity : Nat)
    (h : (readLines g number ls s).value = .error e) :
    ∃ before line after, ls = before ++ line :: after ∧
      e.line? capacity = some (number + before.length) ∧
      (∀ rest, readLines g number (before ++ line :: rest) s = readLines g number ls s) ∧
      ∃ s', (readLines g number before s).value = .ok s' := by
  induction ls generalizing number s with
  | nil => cases h
  | cons line after ih =>
    rw [readLines] at h
    cases hline : s.readLine g number line with
    | error e' =>
      rw [hline] at h
      cases h
      refine ⟨[], line, after, rfl, line?_of_readLine capacity hline, ?_, s, rfl⟩
      intro rest
      simp only [List.nil_append, readLines, hline]
    | ok r =>
      obtain ⟨s', events⟩ := r
      rw [hline] at h
      obtain ⟨before, faulty, after, rfl, hnumber, hsame, s₁, hbefore⟩ := ih h
      refine ⟨line :: before, faulty, after, rfl, ?_, ?_, s₁, ?_⟩
      · rw [hnumber, List.length_cons]
        congr 1
        omega
      · intro rest
        simp only [List.cons_append, readLines, hline, hsame]
      · simp only [readLines, hline, hbefore]

end Metadata

variable {config : Config} {code : CodeSection} {ls : List (List Char)} {e : LoadError} {n : Nat}

theorem faultless_finish (g : Geometry) (instructions : List Instruction) (s : Metadata) :
    Faultless (finish g instructions s).value := by
  unfold finish
  split
  · exact .program _
  · exact .ok _

theorem faultless_complete {s : Metadata} (h : (Metadata.readLines config.geometry code.next
    code.rest (code.metadata config)).value = .ok s) : Faultless (code.complete config).value := by
  simp only [CodeSection.complete, h]
  exact faultless_finish _ _ _

theorem exists_finish_of_complete (h : (code.complete config).value = .error e)
    (hn : e.line? config.geometry.programCapacity = none) :
    ∃ s, (Metadata.readLines config.geometry code.next code.rest (code.metadata config)).value =
        .ok s ∧ (finish config.geometry code.instructions s).value = .error e := by
  simp only [CodeSection.complete] at h
  split at h
  · next hr =>
    cases h
    obtain ⟨_, _, _, _, hline, _⟩ := Metadata.exists_faulty_of_readLines _ hr
    cases hn.symm.trans hline
  · next s hr => exact ⟨s, hr, h⟩

theorem exists_faulty_of_complete (h : (code.complete config).value = .error e)
    (hn : e.line? config.geometry.programCapacity = some n) :
    ∃ before line after, code.rest = before ++ line :: after ∧ n = code.next + before.length ∧
      (∀ rest, { code with rest := before ++ line :: rest }.complete config =
        code.complete config) ∧
      Faultless ({ code with rest := before }.complete config).value := by
  cases hr : (Metadata.readLines config.geometry code.next code.rest
      (code.metadata config)).value with
  | ok s =>
    have hfaultless := faultless_complete hr
    rw [h] at hfaultless
    cases hfaultless with
    | truncated | program => cases hn
  | error e' =>
    have he : e' = e := by
      simp only [CodeSection.complete, hr] at h
      exact Except.error.inj h
    subst he
    obtain ⟨before, line, after, hrest, hnumber, hsame, s, hbefore⟩ :=
      Metadata.exists_faulty_of_readLines config.geometry.programCapacity hr
    refine ⟨before, line, after, hrest, ?_, ?_, ?_⟩
    · exact Option.some.inj (hn.symm.trans hnumber)
    · intro rest
      have hmetadata : ({ code with rest := before ++ line :: rest } : CodeSection).metadata config =
          code.metadata config := rfl
      simp only [CodeSection.complete, hmetadata, hsame rest]
    · exact faultless_complete hbefore

/-- Line `n` is the first one with a fault: it is there, what stands behind it does not matter, and the
lines before it are read without a fault. -/
def FirstFaulty (config : Config) (ls : List (List Char)) (n : Nat) : Prop :=
  ∃ before line after, ls = before ++ line :: after ∧ n = before.length + 1 ∧
    (∀ rest, readLines config (before ++ line :: rest) = readLines config ls) ∧
    Faultless (readLines config before).value

theorem firstFaulty_of_readCode
    (h : readCode config.geometry.programCapacity 0 2 ls = .error e)
    (hn : e.line? config.geometry.programCapacity = some n) :
    FirstFaulty config (signature :: ls) n := by
  have ht : e ≠ .truncated := by
    rintro rfl
    cases hn
  obtain ⟨before, line, after, rfl, hnumber, hsame, hbefore⟩ := exists_faulty_of_readCode rfl h ht
  have hline : n = 2 + before.length := Option.some.inj (hn.symm.trans hnumber)
  refine ⟨signature :: before, line, after, rfl, ?_, ?_, ?_⟩
  · rw [List.length_cons]
    omega
  · intro rest
    simp only [List.cons_append, readLines, if_true, hsame]
  · simp only [readLines, if_true, hbefore]
    exact .truncated

theorem firstFaulty_of_complete
    (hcode : readCode config.geometry.programCapacity 0 2 ls = .ok code)
    (h : (code.complete config).value = .error e)
    (hn : e.line? config.geometry.programCapacity = some n) :
    FirstFaulty config (signature :: ls) n := by
  obtain ⟨head, hls, hnext, hcut⟩ := exists_head_of_readCode hcode
  obtain ⟨before, line, after, hrest, hline, hsame, hbefore⟩ := exists_faulty_of_complete h hn
  refine ⟨signature :: (head ++ before), line, after, ?_, ?_, ?_, ?_⟩
  · rw [hls, hrest, List.cons_append, List.append_assoc]
  · rw [List.length_cons, List.length_append]
    omega
  · intro rest
    simp only [List.cons_append, List.append_assoc, readLines, if_true, hcut, hcode, hsame]
  · simp only [readLines, if_true, hcut]
    exact hbefore

theorem firstFaulty_of_readLines (h : (readLines config ls).value = .error e)
    (hn : e.line? config.geometry.programCapacity = some n) : FirstFaulty config ls n := by
  cases ls with
  | nil =>
    cases h
    cases hn
  | cons first rest =>
    by_cases hfirst : first = signature
    · subst hfirst
      simp only [readLines, if_true] at h
      cases hcode : readCode config.geometry.programCapacity 0 2 rest with
      | error e' =>
        rw [hcode] at h
        cases h
        exact firstFaulty_of_readCode hcode hn
      | ok code =>
        rw [hcode] at h
        exact firstFaulty_of_complete hcode h hn
    · simp only [readLines, if_neg hfirst] at h
      cases h
      cases hn

theorem finish_eq_program_iff {g : Geometry} {instructions : List Instruction} {s : Metadata}
    {fault : ProgramError} : (finish g instructions s).value = .error (.program fault) ↔
      Program.validate instructions g = .error fault := by
  unfold finish
  cases Program.validate instructions g with
  | error e => simp
  | ok program => simp

theorem complete_eq_program_iff {fault : ProgramError} :
    (code.complete config).value = .error (.program fault) ↔
      ∃ sts, List.Forall₂ Says code.rest sts ∧ Admitted config.geometry code.bank sts ∧
        Program.validate code.instructions config.geometry = .error fault := by
  constructor
  · intro h
    obtain ⟨s, hr, hfinish⟩ := exists_finish_of_complete h rfl
    obtain ⟨sts, hsays, hadmitted, -⟩ := Metadata.readLines_eq_ok_iff.1 hr
    exact ⟨sts, hsays, hadmitted, finish_eq_program_iff.1 hfinish⟩
  · rintro ⟨sts, hsays, hadmitted, hfault⟩
    have hr : (Metadata.readLines config.geometry code.next code.rest (code.metadata config)).value =
        .ok (sts.foldl Metadata.take (code.metadata config)) :=
      Metadata.readLines_eq_ok_iff.2 ⟨sts, hsays, hadmitted, rfl⟩
    simp only [CodeSection.complete, hr]
    exact finish_eq_program_iff.2 hfault

/-- The program is refused exactly if all lines are taken in and validation refuses it. -/
theorem readLines_eq_program_iff {fault : ProgramError} :
    (readLines config ls).value = .error (.program fault) ↔
      ∃ c, Tells ls c ∧ c.instructions.length ≤ config.geometry.programCapacity ∧
        Admitted config.geometry c.bank c.statements ∧
        Program.validate c.instructions config.geometry = .error fault := by
  constructor
  · intro h
    unfold readLines at h
    split at h
    · cases h
    · next first rest =>
      split_ifs at h with hfirst
      · split at h
        · next e hcode =>
          cases h
          obtain ⟨_, _, _, _, hline, _⟩ := exists_faulty_of_readCode rfl hcode (by simp)
          cases hline
        · next code hcode =>
          obtain ⟨records, last, hrest, hrecords, hends, hlen⟩ :=
            exists_records_of_readCode (Nat.zero_le _) hcode
          obtain ⟨sts, hsays, hadmitted, hfault⟩ := complete_eq_program_iff.1 h
          rw [Nat.zero_add, hrecords.length_eq] at hlen
          exact ⟨⟨code.instructions, code.bank, code.cycleTime, sts⟩,
            ⟨records, last, code.rest, by rw [hfirst, hrest], hrecords, hends, hsays⟩, hlen,
            hadmitted, hfault⟩
      · cases h
  · rintro ⟨⟨instructions, bank, time, sts⟩, ⟨records, last, metadata, rfl, hrecords, hends, hsays⟩,
      hlen, hadmitted, hfault⟩
    have hcount : 0 + records.length ≤ config.geometry.programCapacity := by
      rw [Nat.zero_add, hrecords.length_eq]
      exact hlen
    simp only [readLines, if_true, readCode_of_records hrecords hends hcount]
    exact complete_eq_program_iff.2 ⟨sts, hsays, hadmitted, hfault⟩

theorem complete_ne_truncated : (code.complete config).value ≠ .error .truncated := by
  intro h
  obtain ⟨s, -, hfinish⟩ := exists_finish_of_complete h rfl
  unfold finish at hfinish
  split at hfinish
  · cases hfinish
  · cases hfinish

theorem readLines_eq_truncated_iff : (readLines config ls).value = .error .truncated ↔
    ∃ records instructions, ls = signature :: records ∧
      List.Forall₂ Instruction.Spells records instructions ∧
      records.length ≤ config.geometry.programCapacity := by
  have hcode {records : List (List Char)} :
      readCode config.geometry.programCapacity 0 2 records = .error .truncated ↔
        ∃ instructions, List.Forall₂ Instruction.Spells records instructions ∧
          0 + records.length ≤ config.geometry.programCapacity :=
    readCode_eq_truncated_iff (Nat.zero_le _) rfl
  constructor
  · intro h
    unfold readLines at h
    split at h
    · cases h
    · next first rest =>
      split_ifs at h with hfirst
      · split at h
        · next e hr =>
          cases h
          obtain ⟨instructions, hrecords, hlen⟩ := hcode.1 hr
          rw [Nat.zero_add] at hlen
          exact ⟨rest, instructions, by rw [hfirst], hrecords, hlen⟩
        · exact absurd h complete_ne_truncated
      · cases h
  · rintro ⟨records, instructions, rfl, hrecords, hlen⟩
    have hr : readCode config.geometry.programCapacity 0 2 records = .error .truncated :=
      hcode.2 ⟨instructions, hrecords, by omega⟩
    simp only [readLines, if_true, hr]

/-- A faulty line is reported whatever stands behind it, and nothing is wrong with the text before it.
Only a text whose lines are all taken in has its program refused, never for its length, and a truncated
text has nothing wrong with its records. -/
theorem read_reports_first_fault (text : String) (config : Config) :
    (∀ e n, (read text config).value = .error e →
      e.line? config.geometry.programCapacity = some n →
      n ≤ (Text.lines text.toList).length ∧
      (∀ other : String, (Text.lines other.toList).take n = (Text.lines text.toList).take n →
        read other config = read text config) ∧
      Faultless (read (String.ofList (Text.keepLines (n - 1) text.toList)) config).value) ∧
    (∀ fault, (read text config).value = .error (.program fault) ↔
      ∃ c, Tells (Text.lines text.toList) c ∧
        c.instructions.length ≤ config.geometry.programCapacity ∧
        Admitted config.geometry c.bank c.statements ∧
        Program.validate c.instructions config.geometry = .error fault) ∧
    (∀ length capacity,
      (read text config).value ≠ .error (.program (.tooLarge length capacity))) ∧
    ((read text config).value = .error .truncated ↔ ∃ records instructions,
      Text.lines text.toList = signature :: records ∧
        List.Forall₂ Instruction.Spells records instructions ∧
        records.length ≤ config.geometry.programCapacity) := by
  refine ⟨?_, fun _ => readLines_eq_program_iff, ?_, readLines_eq_truncated_iff⟩
  · intro e n h hn
    obtain ⟨before, line, after, hlines, hline, hsame, hbefore⟩ := firstFaulty_of_readLines h hn
    have hlength : before.length < (before ++ line :: after).length := by simp
    refine ⟨?_, ?_, ?_⟩
    · rw [hlines]
      omega
    · intro other hother
      rw [hlines, hline, List.take_length_add_append, List.take_succ_cons, List.take_zero] at hother
      have hsplit := List.take_append_drop (before.length + 1) (Text.lines other.toList)
      rw [hother, List.append_assoc] at hsplit
      rw [read, ← hsplit]
      exact hsame _
    · have htake : (Text.lines text.toList).take (n - 1) = before := by
        rw [hlines, hline, Nat.add_sub_cancel, List.take_left]
      rw [read, String.toList_ofList, Text.lines_keepLines, htake]
      exact hbefore
  · intro length capacity h
    obtain ⟨c, -, hlen, -, hfault⟩ := readLines_eq_program_iff.1 h
    cases Program.refused_of_validate hfault with
    | tooLarge hl => omega
    | record _ _ hf _ => cases hf

/-- Line 5 maps a name outside memory; that line 6 maps nothing does not matter any more. -/
theorem read_reports_first_fault_two :
    (read "$$LDcode\nff0000000000000000000000\n$$bits\nb,1\na,200\nc\n" {}).value =
        .error (.mappingOutOfRange 5 "a" .bit 200 128) ∧
      read "$$LDcode\nff0000000000000000000000\n$$bits\nb,1\na,200\nd,3" {} =
        read "$$LDcode\nff0000000000000000000000\n$$bits\nb,1\na,200\nc\n" {} ∧
      Faultless (read "$$LDcode\nff0000000000000000000000\n$$bits\nb,1\n" {}).value := by
  have h : (read "$$LDcode\nff0000000000000000000000\n$$bits\nb,1\na,200\nc\n" {}).value =
      .error (.mappingOutOfRange 5 "a" .bit 200 128) := by rfl
  obtain ⟨-, hsame, hcut⟩ := (read_reports_first_fault _ {}).1 _ 5 h rfl
  exact ⟨h, hsame _ (by decide), hcut⟩

end Container

end LadderMachine
