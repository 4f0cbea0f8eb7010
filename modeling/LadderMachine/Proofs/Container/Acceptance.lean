import LadderMachine.Container.Reader
import LadderMachine.Proofs.Container.Grammar
import LadderMachine.Proofs.Program.WellFormed
import LadderMachine.Proofs.Text.Lines

/-!
# What is read from a container

Reading follows the grammar line by line: each line that is taken in says a statement that fits, and
the statements are entered in their order. `read_eq_ok_iff` puts the lines together: a text is read
as an image exactly if its lines tell contents that are sound, and it is the image of these contents.
-/

namespace LadderMachine.Container

structure Contents where
  instructions : List Instruction
  /-- Bank selected by the line that ends the records. -/
  bank : Bank
  /-- Cycle time given by that line. -/
  time : Option UInt64
  statements : List Statement

/-- The signature, a record for each instruction, the line that ends them, and a line for each
statement. -/
def Tells (ls : List (List Char)) (c : Contents) : Prop :=
  ∃ records last metadata, ls = signature :: (records ++ last :: metadata) ∧
    List.Forall₂ Instruction.Spells records c.instructions ∧ Ends last c.bank c.time ∧
    List.Forall₂ Says metadata c.statements

/-- The addresses are cells and the instructions are well-formed. -/
structure Contents.Sound (config : Config) (c : Contents) : Prop where
  admitted : Admitted config.geometry c.bank c.statements
  wellFormed : WellFormed config.geometry c.instructions

namespace Metadata

def take (s : Metadata) : Statement → Metadata
  | .nothing => s
  | .bank bank => { s with bank }
  | .time time => s.withCycleTime time
  | .mapping m => s.enter m

end Metadata

namespace Contents

/-- Metadata behind the records. -/
def start (config : Config) (c : Contents) : Metadata :=
  CodeSection.metadata ⟨c.instructions, c.bank, c.time, 0, []⟩ config

def metadata (config : Config) (c : Contents) : Metadata :=
  c.statements.foldl Metadata.take (c.start config)

def image (config : Config) (c : Contents) : Image where
  program := ⟨c.instructions.toArray⟩
  pins := (c.metadata config).pins
  symbols := (c.metadata config).symbols
  cycleTime := (c.metadata config).cycleTime

end Contents

namespace Metadata

variable {g : Geometry} {number : Nat} {line : List Char} {s s' : Metadata}

theorem bank_take (s : Metadata) (st : Statement) : (s.take st).bank = st.bankAfter s.bank := by
  cases st <;> rfl

theorem exists_says_of_readLine {events : List Event}
    (h : s.readLine g number line = .ok ⟨s', events⟩) :
    ∃ st, Says line st ∧ st.Fits g s.bank ∧ s.take st = s' := by
  have hf := form_classify line
  unfold readLine at h
  cases hk : Line.classify line with
  | blank =>
    rw [hk] at h hf
    cases h
    exact ⟨.nothing, .blank hf, trivial, rfl⟩
  | heading bank =>
    rw [hk] at h hf
    cases h
    exact ⟨.bank bank, .heading hf, trivial, rfl⟩
  | cycle suffix =>
    rw [hk] at h hf
    simp only at h
    split at h
    · exact absurd h (by simp)
    · next time ht =>
      cases h
      exact ⟨.time time, .cycle hf (readCycleTime_eq_ok_iff.1 ht), trivial, rfl⟩
  | sentinel =>
    rw [hk] at h hf
    cases h
    exact ⟨.nothing, .sentinel hf, trivial, rfl⟩
  | data =>
    rw [hk] at h hf
    simp only [readMapping] at h
    split at h
    · exact absurd h (by simp)
    · next m hm =>
      split_ifs at h with hlt
      cases h
      exact ⟨.mapping m, .mapping hf (ofLine?_eq_some_iff.1 hm), Statement.fits_mapping_iff.2 hlt, rfl⟩

theorem exists_readLine_of_says {st : Statement} (hs : Says line st) (hfits : st.Fits g s.bank) :
    ∃ events, s.readLine g number line = .ok ⟨s.take st, events⟩ := by
  cases hs with
  | blank hf => exact ⟨_, by rw [readLine, classify_of_form hf]; rfl⟩
  | sentinel hf => exact ⟨_, by rw [readLine, classify_of_form hf]; rfl⟩
  | heading hf => exact ⟨_, by rw [readLine, classify_of_form hf]; rfl⟩
  | cycle hf ht =>
    refine ⟨[], ?_⟩
    simp only [readLine, classify_of_form hf, readCycleTime_eq_ok_iff.2 ht]
    rfl
  | @mapping m hf hm =>
    refine ⟨s.remapEvents number m ++ s.pinEvents number m, ?_⟩
    rw [readLine, classify_of_form hf]
    simp only [readMapping, ofLine?_eq_some_iff.2 hm]
    exact if_pos (Statement.fits_mapping_iff.1 hfits)

/-- Lines are taken in if what they say is admitted. -/
theorem readLines_eq_ok_iff {ls : List (List Char)} : (readLines g number ls s).value = .ok s' ↔
    ∃ sts, List.Forall₂ Says ls sts ∧ Admitted g s.bank sts ∧ sts.foldl take s = s' := by
  induction ls generalizing number s with
  | nil =>
    constructor
    · intro h
      cases h
      exact ⟨[], .nil, trivial, rfl⟩
    · rintro ⟨sts, hs, -, rfl⟩
      cases hs
      rfl
  | cons line rest ih =>
    constructor
    · intro h
      unfold readLines at h
      split at h
      · exact absurd h (by simp)
      · next s₁ events hl =>
        obtain ⟨st, hsays, hfits, rfl⟩ := exists_says_of_readLine hl
        obtain ⟨sts, hs, ha, rfl⟩ := ih.1 h
        rw [bank_take] at ha
        exact ⟨st :: sts, .cons hsays hs, ⟨hfits, ha⟩, rfl⟩
    · rintro ⟨sts, hs, ha, rfl⟩
      cases hs with
      | @cons _ st _ sts hsays hs =>
        obtain ⟨events, hl⟩ : ∃ events, s.readLine g number line = .ok ⟨s.take st, events⟩ :=
          exists_readLine_of_says hsays ha.1
        have hrest : (readLines g (number + 1) rest (s.take st)).value =
            .ok (sts.foldl take (s.take st)) :=
          ih.2 ⟨sts, hs, (bank_take s st).symm ▸ ha.2, rfl⟩
        rw [readLines, hl]
        exact hrest

end Metadata

theorem readRecord_eq_ok_iff {number : Nat} {line : List Char} {i : Instruction} :
    readRecord number line = .ok i ↔ Instruction.Spells line i := by
  rw [← Instruction.ofHex_eq_ok_iff, readRecord]
  cases h : Instruction.ofHex line with
  | ok j => simp
  | error e => cases e <;> simp

theorem form_of_spells {line : List Char} {i : Instruction} (h : Instruction.Spells line i) :
    Form line .data := by
  obtain ⟨hl, hd, -⟩ := h
  obtain ⟨c, rest, rfl⟩ : ∃ c rest, line = c :: rest := by
    cases line with
    | nil => exact absurd hl (by simp)
    | cons c rest => exact ⟨c, rest, rfl⟩
  have hc := Hexadecimal.isDigit_iff.1 (hd c (by simp))
  refine .data ?_ ?_
  · intro ht
    have hb := Text.trim_eq_nil_iff.1 ht c (by simp)
    have hn := Text.toNat_of_isBlank hb
    omega
  · rintro ⟨suffix, hs⟩
    have he : c = '$' := (List.cons.inj hs).1.symm
    rw [he] at hc
    exact absurd hc (by decide)

section Code

variable {capacity count number : Nat} {ls : List (List Char)} {code : CodeSection}

/-- Records are read up to the line that ends them, as many as there are slots left. -/
theorem exists_records_of_readCode (hc : count ≤ capacity)
    (h : readCode capacity count number ls = .ok code) :
    ∃ records last, ls = records ++ last :: code.rest ∧
      List.Forall₂ Instruction.Spells records code.instructions ∧
      Ends last code.bank code.cycleTime ∧ count + records.length ≤ capacity := by
  induction ls generalizing count number code with
  | nil => exact absurd h (by simp [readCode])
  | cons line rest ih =>
    unfold readCode at h
    split at h
    · next bank hk =>
      cases h
      exact ⟨[], line, rfl, .nil, .heading (classify_eq_iff.1 hk), hc⟩
    · next suffix hk =>
      split at h
      · exact absurd h (by simp)
      · next time ht =>
        cases h
        have he := Ends.cycle (classify_eq_iff.1 hk) (readCycleTime_eq_ok_iff.1 ht)
        exact ⟨[], line, rfl, .nil, he, hc⟩
    · split_ifs at h with hfull
      split at h
      · exact absurd h (by simp)
      · next i hi =>
        split at h
        · exact absurd h (by simp)
        · next code' hcode =>
          cases h
          obtain ⟨records, last, rfl, hs, he, hlen⟩ := ih (by omega) hcode
          refine ⟨line :: records, last, rfl, .cons (readRecord_eq_ok_iff.1 hi) hs, he, ?_⟩
          rw [List.length_cons]
          omega

theorem readCode_of_records {records rest : List (List Char)} {last : List Char}
    {instructions : List Instruction} {bank : Bank} {time : Option UInt64}
    (hs : List.Forall₂ Instruction.Spells records instructions) (he : Ends last bank time)
    (hlen : count + records.length ≤ capacity) :
    readCode capacity count number (records ++ last :: rest) =
      .ok ⟨instructions, bank, time, number + records.length + 1, rest⟩ := by
  induction hs generalizing count number with
  | nil =>
    cases he with
    | heading hf => simp [readCode, classify_of_form hf]
    | cycle hf ht => simp [readCode, classify_of_form hf, readCycleTime_eq_ok_iff.2 ht]
  | @cons record i records instructions hi _ ih =>
    rw [List.length_cons] at hlen
    have hrest := @ih (count + 1) (number + 1) (by omega)
    have hnext : number + 1 + records.length + 1 = number + (records.length + 1) + 1 := by omega
    have hne : count ≠ capacity := by omega
    rw [hnext] at hrest
    simp only [List.cons_append, readCode, classify_of_form (form_of_spells hi), if_neg hne,
      readRecord_eq_ok_iff.2 hi, hrest, List.length_cons]

end Code

theorem finish_eq_ok_iff {g : Geometry} {instructions : List Instruction} {s : Metadata}
    {image : Image} : (finish g instructions s).value = .ok image ↔
      WellFormed g instructions ∧ image = ⟨⟨instructions.toArray⟩, s.pins, s.symbols, s.cycleTime⟩ := by
  unfold finish
  cases hv : Program.validate instructions g with
  | error e =>
    have hn : ¬ WellFormed g instructions := by
      intro hw
      obtain ⟨p, hp⟩ := Program.exists_validate_eq_ok_iff.2 hw
      rw [hp] at hv
      exact absurd hv (by simp)
    simp [hn]
  | ok program =>
    obtain ⟨rfl, hw⟩ := Program.validate_eq_ok_iff.1 hv
    simp [hw, eq_comm]

theorem complete_eq_ok_iff {config : Config} {code : CodeSection} {image : Image} :
    (code.complete config).value = .ok image ↔ ∃ sts, List.Forall₂ Says code.rest sts ∧
      Contents.Sound config ⟨code.instructions, code.bank, code.cycleTime, sts⟩ ∧
      image = Contents.image config ⟨code.instructions, code.bank, code.cycleTime, sts⟩ := by
  constructor
  · intro h
    unfold CodeSection.complete at h
    simp only at h
    split at h
    · exact absurd h (by simp)
    · next s hs =>
      obtain ⟨sts, hsays, hadmitted, rfl⟩ := Metadata.readLines_eq_ok_iff.1 hs
      obtain ⟨hw, hi⟩ := finish_eq_ok_iff.1 h
      exact ⟨sts, hsays, ⟨hadmitted, hw⟩, hi⟩
  · rintro ⟨sts, hsays, hsound, hi⟩
    have hs : (Metadata.readLines config.geometry code.next code.rest (code.metadata config)).value =
        .ok (sts.foldl Metadata.take (code.metadata config)) :=
      Metadata.readLines_eq_ok_iff.2 ⟨sts, hsays, hsound.admitted, rfl⟩
    simp only [CodeSection.complete, hs]
    exact finish_eq_ok_iff.2 ⟨hsound.wellFormed, hi⟩

theorem readLines_eq_ok_iff {config : Config} {ls : List (List Char)} {image : Image} :
    (readLines config ls).value = .ok image ↔
      ∃ c, Tells ls c ∧ c.Sound config ∧ image = c.image config := by
  constructor
  · intro h
    unfold readLines at h
    split at h
    · exact absurd h (by simp)
    · next first rest =>
      split_ifs at h with hfirst
      split at h
      · exact absurd h (by simp)
      · next code hcode =>
        obtain ⟨records, last, hrest, hrecords, hends, -⟩ :=
          exists_records_of_readCode (Nat.zero_le _) hcode
        obtain ⟨sts, hsays, hsound, hi⟩ := complete_eq_ok_iff.1 h
        exact ⟨_, ⟨records, last, code.rest, by rw [hfirst, hrest], hrecords, hends, hsays⟩, hsound,
          hi⟩
  · rintro ⟨⟨instructions, bank, time, sts⟩, ⟨records, last, metadata, rfl, hrecords, hends, hsays⟩,
      hsound, hi⟩
    have hlen : 0 + records.length ≤ config.geometry.programCapacity := by
      rw [Nat.zero_add, hrecords.length_eq]
      exact hsound.wellFormed.length_le
    have hcode : readCode config.geometry.programCapacity 0 2 (records ++ last :: metadata) =
        .ok ⟨instructions, bank, time, 2 + records.length + 1, metadata⟩ :=
      readCode_of_records hrecords hends hlen
    rw [readLines, if_pos rfl, hcode]
    exact complete_eq_ok_iff.2 ⟨sts, hsays, hsound, hi⟩

/-- A text is read exactly if its lines tell sound contents, and as the image of these. -/
theorem read_eq_ok_iff {text : String} {config : Config} {image : Image} :
    (read text config).value = .ok image ↔
      ∃ c, Tells (Text.lines text.toList) c ∧ c.Sound config ∧ image = c.image config :=
  readLines_eq_ok_iff

/-- The texts that are read are those whose lines follow the grammar: the signature, no more records
than there are slots, the line that ends them, and statements whose addresses are cells of their
banks; and the instructions have to be valid. -/
theorem exists_read_iff (text : String) (config : Config) :
    (∃ image, (read text config).value = .ok image) ↔
      ∃ records last metadata instructions bank time statements,
        Text.Splits text.toList (signature :: (records ++ last :: metadata)) ∧
        List.Forall₂ Instruction.Spells records instructions ∧
        records.length ≤ config.geometry.programCapacity ∧
        Ends last bank time ∧
        List.Forall₂ Says metadata statements ∧
        Admitted config.geometry bank statements ∧
        ∃ program, Program.validate instructions config.geometry = .ok program := by
  constructor
  · rintro ⟨image, h⟩
    obtain ⟨⟨instructions, bank, time, sts⟩, ⟨records, last, metadata, hls, hrecords, hends, hsays⟩,
      hsound, -⟩ := read_eq_ok_iff.1 h
    have hlen : records.length ≤ config.geometry.programCapacity := by
      rw [hrecords.length_eq]
      exact hsound.wellFormed.length_le
    exact ⟨records, last, metadata, instructions, bank, time, sts, Text.lines_eq_iff.1 hls, hrecords,
      hlen, hends, hsays, hsound.admitted,
      Program.exists_validate_eq_ok_iff.2 hsound.wellFormed⟩
  · rintro ⟨records, last, metadata, instructions, bank, time, sts, hls, hrecords, -, hends, hsays,
      hadmitted, hvalid⟩
    have hw := Program.exists_validate_eq_ok_iff.1 hvalid
    exact ⟨_, read_eq_ok_iff.2 ⟨⟨instructions, bank, time, sts⟩,
      ⟨records, last, metadata, Text.lines_eq_iff.2 hls, hrecords, hends, hsays⟩,
      ⟨hadmitted, hw⟩, rfl⟩⟩

end LadderMachine.Container
