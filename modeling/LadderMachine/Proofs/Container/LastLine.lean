import LadderMachine.Proofs.Container.Sources

/-!
# The last line counts

Which address a name or a pin has is said by the lines of the text alone. A line behind the records
`Resolves` to a mapping in the bank of its pin, or else in the bank of the last heading above it, and
`LastGives` is the address that the last line of this kind gives. Names and pins are followed
separately: two spellings of one pin are two names. `Reflects` holds behind every line.
-/

namespace LadderMachine.Container

def headingBank? (line : List Char) : Option Bank :=
  if line = heading .bit then some .bit
  else if line = heading .int then some .int
  else none

/-- The bank of the last heading among the lines, and the bits if there is none. -/
def bankAbove (above : List (List Char)) : Bank :=
  (above.filterMap headingBank?).getLast?.getD .bit

/-- Below the given lines, a line maps a name in a bank. It stands behind the line that ends the
records. -/
structure Resolves (above : List (List Char)) (line : List Char) (bank : Bank) (m : Mapping) :
    Prop where
  behind : ∃ last ∈ above, ∃ selected time, Ends last selected time
  form : Form line .data
  maps : Maps line m
  bank_eq : m.bank (bankAbove above) = bank

def GivesName (bank : Bank) (name : String) (above : List (List Char)) (line : List Char)
    (address : Nat) : Prop :=
  ∃ m, Resolves above line bank m ∧ m.label = name ∧ m.address = address

def GivesPin (pin : Pin) (above : List (List Char)) (line : List Char) (address : Nat) : Prop :=
  ∃ bank m, Resolves above line bank m ∧ m.pin? = some pin ∧ m.address = address

/-- The address that the last line gives among those that give one, in view of the lines above it. -/
inductive LastGives (R : List (List Char) → List Char → Nat → Prop) (ls : List (List Char)) :
    Option Nat → Prop
  | line {n : Nat} {line : List Char} {address : Nat} (hn : ls[n]? = some line)
      (hr : R (ls.take n) line address)
      (hlast : ∀ k other, ls[k]? = some other → n < k → ∀ b, ¬ R (ls.take k) other b) :
      LastGives R ls (some address)
  | absent (h : ∀ k other, ls[k]? = some other → ∀ b, ¬ R (ls.take k) other b) :
      LastGives R ls none

section LastGives

variable {R : List (List Char) → List Char → Nat → Prop} {ls : List (List Char)} {line : List Char}

theorem forall_line_concat {P : Nat → List (List Char) → List Char → Prop}
    (h : ∀ k other, ls[k]? = some other → P k (ls.take k) other) (hlast : P ls.length ls line) :
    ∀ k other, (ls ++ [line])[k]? = some other → P k ((ls ++ [line]).take k) other := by
  intro k other hk
  by_cases hlt : k < ls.length
  · rw [List.getElem?_append_left hlt] at hk
    rw [List.take_append_of_le_length (Nat.le_of_lt hlt)]
    exact h k other hk
  · have hle : k < (ls ++ [line]).length := (List.getElem?_eq_some_iff.1 hk).1
    rw [List.length_append, List.length_singleton] at hle
    obtain rfl : k = ls.length := by omega
    rw [List.getElem?_concat_length, Option.some_inj] at hk
    rw [List.take_left, ← hk]
    exact hlast

theorem LastGives.concat {address : Nat} (hr : R ls line address) :
    LastGives R (ls ++ [line]) (some address) := by
  refine .line (n := ls.length) List.getElem?_concat_length ?_ ?_
  · rwa [List.take_left]
  · apply forall_line_concat (P := fun k above other => ls.length < k → ∀ b, ¬ R above other b)
    · intro k other hk hlt
      have hle : k < ls.length := (List.getElem?_eq_some_iff.1 hk).1
      omega
    · intro hlt
      exact absurd hlt (Nat.lt_irrefl _)

theorem LastGives.concat_of_not {o : Option Nat} (h : LastGives R ls o)
    (hn : ∀ b, ¬ R ls line b) : LastGives R (ls ++ [line]) o := by
  cases h with
  | @line n l address hl hr hlast =>
    have hlt : n < ls.length := (List.getElem?_eq_some_iff.1 hl).1
    have hget : (ls ++ [line])[n]? = some l := by rwa [List.getElem?_append_left hlt]
    have hgives : R ((ls ++ [line]).take n) l address := by
      rwa [List.take_append_of_le_length (Nat.le_of_lt hlt)]
    apply LastGives.line hget hgives
    apply forall_line_concat (P := fun k above other => n < k → ∀ b, ¬ R above other b) hlast
    exact fun _ => hn
  | absent habsent =>
    exact .absent (forall_line_concat (P := fun _ above other => ∀ b, ¬ R above other b) habsent hn)

end LastGives

section Banks

variable {above : List (List Char)} {line : List Char} {bank : Bank}

theorem headingBank?_eq_some_iff : headingBank? line = some bank ↔ line = heading bank := by
  unfold headingBank?
  cases bank with
  | bit =>
    by_cases hbit : line = heading .bit
    · simp [hbit]
    · rw [if_neg hbit]
      split <;> simp [hbit]
  | int =>
    by_cases hbit : line = heading .bit
    · rw [if_pos hbit, hbit]
      simp [heading]
    · rw [if_neg hbit]
      split <;> simp [*]

theorem bankAbove_concat : bankAbove (above ++ [line]) = (headingBank? line).getD (bankAbove above) := by
  unfold bankAbove
  rw [List.filterMap_append]
  cases h : headingBank? line with
  | none => simp [h]
  | some bank => simp [h]

theorem headingBank?_eq_none {k : Line} (h : Form line k) (hk : ∀ bank, k ≠ .heading bank) :
    headingBank? line = none := by
  by_contra hne
  obtain ⟨bank, hb⟩ := Option.ne_none_iff_exists'.1 hne
  have hline := headingBank?_eq_some_iff.1 hb
  exact hk bank (h.unique (hline ▸ .heading bank))

theorem bankAbove_concat_of_not {k : Line} (h : Form line k) (hk : ∀ bank, k ≠ .heading bank) :
    bankAbove (above ++ [line]) = bankAbove above := by
  rw [bankAbove_concat, headingBank?_eq_none h hk, Option.getD_none]

theorem headingBank?_of_form (h : Form line (.heading bank)) : headingBank? line = some bank := by
  cases h
  exact headingBank?_eq_some_iff.2 rfl

end Banks

/-- What has been taken in behind the given lines is what these lines say. -/
structure Metadata.Reflects (above : List (List Char)) (s : Metadata) : Prop where
  bank_eq : s.bank = bankAbove above
  names (bank : Bank) (name : String) :
    LastGives (GivesName bank name) above (s.symbols.get? bank name)
  pins (kind : PinKind) (index : Nat) (h : index < s.pins.capacity kind) :
    LastGives (GivesPin ⟨kind, index⟩) above (s.pins.get? kind index)

section Steps

variable {above ls : List (List Char)} {line : List Char} {s : Metadata} {st : Statement}
  {bank : Bank} {m : Mapping}

/-- A line that maps no name leaves the tables as they are. -/
theorem Metadata.Reflects.concat_of_not_data {s' : Metadata} {k : Line} (h : s.Reflects above)
    (hf : Form line k) (hk : k ≠ .data) (hbank : s'.bank = bankAbove (above ++ [line]))
    (hsymbols : s'.symbols = s.symbols) (hpins : s'.pins = s.pins) :
    s'.Reflects (above ++ [line]) := by
  have hdata : ∀ bank m, ¬ Resolves above line bank m := by
    intro bank m hr
    exact hk (hf.unique hr.form)
  refine ⟨hbank, ?_, ?_⟩
  · intro bank name
    rw [hsymbols]
    apply (h.names bank name).concat_of_not
    rintro b ⟨m, hr, -⟩
    exact hdata bank m hr
  · intro kind index hi
    rw [hpins] at hi ⊢
    apply (h.pins kind index hi).concat_of_not
    rintro b ⟨bank, m, hr, -⟩
    exact hdata bank m hr

theorem Metadata.Reflects.enter (h : s.Reflects above)
    (hlast : ∃ last ∈ above, ∃ selected time, Ends last selected time) (hf : Form line .data)
    (hm : Maps line m) : (s.enter m).Reflects (above ++ [line]) := by
  have hr : Resolves above line (m.bank s.bank) m := ⟨hlast, hf, hm, by rw [h.bank_eq]⟩
  refine ⟨?_, ?_, ?_⟩
  · rw [bankAbove_concat_of_not hf (by simp)]
    exact h.bank_eq
  · intro bank name
    rw [get?_symbols_enter]
    by_cases hname : m.bank s.bank = bank ∧ m.label = name
    · obtain ⟨rfl, rfl⟩ := hname
      rw [if_pos ⟨rfl, rfl⟩]
      exact .concat ⟨m, hr, rfl, rfl⟩
    · rw [if_neg hname]
      apply (h.names bank name).concat_of_not
      rintro b ⟨m', hr', hlabel, -⟩
      obtain rfl := hm.unique hr'.maps
      exact hname ⟨hr.bank_eq.symm.trans hr'.bank_eq, hlabel⟩
  · intro kind index hi
    rw [capacity_pins_enter] at hi
    rw [get?_pins_enter hi]
    by_cases hpin : m.pin? = some ⟨kind, index⟩
    · rw [if_pos hpin]
      exact .concat ⟨_, m, hr, hpin, rfl⟩
    · rw [if_neg hpin]
      apply (h.pins kind index hi).concat_of_not
      rintro b ⟨bank, m', hr', hpin', -⟩
      obtain rfl := hm.unique hr'.maps
      exact hpin hpin'

theorem Metadata.Reflects.take (h : s.Reflects above)
    (hlast : ∃ last ∈ above, ∃ selected time, Ends last selected time) (hs : Says line st) :
    (s.take st).Reflects (above ++ [line]) := by
  cases hs with
  | blank hf | sentinel hf | cycle hf _ =>
    refine h.concat_of_not_data hf (by simp) ?_ rfl rfl
    rw [bankAbove_concat_of_not hf (by simp)]
    exact h.bank_eq
  | heading hf =>
    refine h.concat_of_not_data hf (by simp) ?_ rfl rfl
    rw [bankAbove_concat, headingBank?_of_form hf]
    rfl
  | mapping hf hm => exact h.enter hlast hf hm

theorem Metadata.Reflects.foldl_take {sts : List Statement} (hs : List.Forall₂ Says ls sts)
    (h : s.Reflects above) (hlast : ∃ last ∈ above, ∃ selected time, Ends last selected time) :
    (sts.foldl Metadata.take s).Reflects (above ++ ls) := by
  induction hs generalizing s above with
  | nil => rwa [List.append_nil]
  | @cons line st ls sts hsays _ ih =>
    rw [List.append_cons, List.foldl_cons]
    apply ih (h.take hlast hsays)
    obtain ⟨last, hmem, hends⟩ := hlast
    exact ⟨last, List.mem_append_left _ hmem, hends⟩

end Steps

section Head

variable {config : Config} {records : List (List Char)} {last : List Char}
  {instructions : List Instruction}

theorem exists_form_of_mem_head (hs : List.Forall₂ Instruction.Spells records instructions)
    {line : List Char} (hl : line ∈ signature :: records) :
    Form line .sentinel ∨ Form line .data := by
  rcases List.mem_cons.1 hl with rfl | hl
  · exact .inl (form_classify signature)
  · obtain ⟨i, hi⟩ := exists_of_mem_left hs hl
    exact .inr (form_of_spells hi)

theorem not_ends_of_mem_head (hs : List.Forall₂ Instruction.Spells records instructions)
    {line : List Char} (hl : line ∈ signature :: records) {bank : Bank} {time : Option UInt64} :
    ¬ Ends line bank time := by
  intro he
  rcases exists_form_of_mem_head hs hl with h | h
  all_goals
    cases he with
    | heading hf | cycle hf _ => cases h.unique hf

theorem bankAbove_head (hs : List.Forall₂ Instruction.Spells records instructions) :
    bankAbove (signature :: records) = .bit := by
  have hnone : (signature :: records).filterMap headingBank? = [] := by
    rw [List.filterMap_eq_nil_iff]
    intro line hl
    rcases exists_form_of_mem_head hs hl with h | h
    · exact headingBank?_eq_none h (by simp)
    · exact headingBank?_eq_none h (by simp)
  rw [bankAbove, hnone]
  rfl

theorem Metadata.reflects_head (hs : List.Forall₂ Instruction.Spells records instructions)
    (s : Metadata) (hbank : s.bank = .bit) (hsymbols : s.symbols = {})
    (hpins : s.pins = .ofCounts config.pins) : s.Reflects (signature :: records) := by
  have hnone : ∀ k line, (signature :: records)[k]? = some line → ∀ bank m,
      ¬ Resolves ((signature :: records).take k) line bank m := by
    intro k line _ bank m hr
    obtain ⟨last, hmem, selected, time, hends⟩ := hr.behind
    exact not_ends_of_mem_head hs (List.mem_of_mem_take hmem) hends
  refine ⟨?_, ?_, ?_⟩
  · rw [hbank, bankAbove_head hs]
  · intro bank name
    have hget : s.symbols.get? bank name = none := by
      rw [hsymbols]
      cases bank <;> rfl
    rw [hget]
    apply LastGives.absent
    rintro k line hk b ⟨m, hr, -⟩
    exact hnone k line hk bank m hr
  · intro kind index _
    rw [hpins, Contents.get?_ofCounts]
    apply LastGives.absent
    rintro k line hk b ⟨bank, m, hr, -⟩
    exact hnone k line hk bank m hr

theorem Contents.reflects_start {bank : Bank} {time : Option UInt64} {sts : List Statement}
    (hs : List.Forall₂ Instruction.Spells records instructions) (he : Ends last bank time) :
    (Contents.start config ⟨instructions, bank, time, sts⟩).Reflects
      (signature :: records ++ [last]) := by
  have hhead : ({ Contents.start config ⟨instructions, bank, time, sts⟩ with bank := .bit } :
      Metadata).Reflects (signature :: records) := Metadata.reflects_head hs _ rfl rfl rfl
  cases he with
  | heading hf =>
    refine hhead.concat_of_not_data hf (by simp) ?_ rfl rfl
    rw [bankAbove_concat, headingBank?_of_form hf]
    rfl
  | cycle hf _ =>
    refine hhead.concat_of_not_data hf (by simp) ?_ rfl rfl
    rw [bankAbove_concat_of_not hf (by simp), bankAbove_head hs]
    rfl

end Head

/-- In an image that has been read, a name has the address of the last line that maps it in its bank,
and a pin the address of the last line that maps any of its names. -/
theorem last_line_counts {text : String} {config : Config} {image : Image}
    (h : (read text config).value = .ok image) :
    (∀ bank name, LastGives (GivesName bank name) (Text.lines text.toList)
      (image.symbols.get? bank name)) ∧
    ∀ kind index,
      (index < image.pins.capacity kind → LastGives (GivesPin ⟨kind, index⟩)
        (Text.lines text.toList) (image.pins.get? kind index)) ∧
      (image.pins.capacity kind ≤ index → image.pins.get? kind index = none) := by
  obtain ⟨⟨instructions, bank, time, sts⟩, ⟨records, last, metadata, hlines, hrecords, hends,
    hsays⟩, -, rfl⟩ := read_eq_ok_iff.1 h
  have hstart : (Contents.start config ⟨instructions, bank, time, sts⟩).Reflects
      (signature :: records ++ [last]) := Contents.reflects_start hrecords hends
  have hlast : ∃ l ∈ signature :: records ++ [last], ∃ selected time, Ends l selected time :=
    ⟨last, by simp, bank, time, hends⟩
  have hall : (Contents.metadata config ⟨instructions, bank, time, sts⟩).Reflects
      (Text.lines text.toList) := by
    rw [hlines, ← List.cons_append, List.append_cons]
    exact hstart.foldl_take hsays hlast
  refine ⟨hall.names, fun kind index => ⟨hall.pins kind index, ?_⟩⟩
  intro hle
  by_contra hne
  obtain ⟨address, haddress⟩ := Option.ne_none_iff_exists'.1 hne
  exact absurd (PinMap.lt_capacity_of_get? haddress) (Nat.not_lt.2 hle)

/-- Two spellings of one pin: each name keeps its own address, and the pin has that of the last line. -/
theorem last_line_counts_two_spellings : ∃ image,
    (read "$$LDcode\nff0000000000000000000000\n$$int16s\nX1,5\nX01,3\na,7\n" {}).value =
        .ok image ∧
      LastGives (GivesName .bit "X1") (Text.lines
        "$$LDcode\nff0000000000000000000000\n$$int16s\nX1,5\nX01,3\na,7\n".toList) (some 5) ∧
      LastGives (GivesPin ⟨.input, 1⟩) (Text.lines
        "$$LDcode\nff0000000000000000000000\n$$int16s\nX1,5\nX01,3\na,7\n".toList) (some 3) ∧
      image.pins.get? .input 16 = none := by
  have h : (read "$$LDcode\nff0000000000000000000000\n$$int16s\nX1,5\nX01,3\na,7\n" {}).value =
      .ok ⟨⟨#[⟨255, 0, 0, 0, 0⟩]⟩, (PinMap.ofCounts {}).insert ⟨.input, 1⟩ 3,
        ((({} : Symbols).insert .bit "X1" 5).insert .bit "X01" 3).insert .int "a" 7, 10000⟩ := by
    rfl
  obtain ⟨hnames, hpins⟩ := last_line_counts h
  refine ⟨_, h, ?_, ?_, ?_⟩
  · exact hnames .bit "X1"
  · exact (hpins .input 1).1 (by decide)
  · exact (hpins .input 16).2 (by decide)

end LadderMachine.Container
