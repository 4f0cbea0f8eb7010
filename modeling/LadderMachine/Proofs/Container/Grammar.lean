import Mathlib.Data.List.Forall2
import LadderMachine.Container.Metadata
import LadderMachine.Proofs.PinNames
import LadderMachine.Proofs.Record
import LadderMachine.Proofs.Text.Fields

/-!
# The grammar of containers

The lines of a container without reference to how they are read. `Form` tells the kinds of lines
apart: headings are compared as a whole, cycle lines by their beginning and blank lines after
trimming. The records end at a line that `Ends` them, and every line behind it `Says` one statement
about banks, the cycle time or a name. A name `Belongs` to a bank by its letter and numeral, or else
by the heading above it, and `Admitted` statements map names to cells of their banks.
-/

namespace LadderMachine.Container

/-- The kinds of lines and what tells each from the others. -/
inductive Form : List Char → Line → Prop
  | blank {line : List Char} (h : Text.trim line = []) : Form line .blank
  | heading (bank : Bank) : Form (heading bank) (.heading bank)
  | cycle (suffix : List Char) : Form (cycleMark ++ suffix) (.cycle (Text.trim suffix))
  | sentinel {line : List Char} (hs : sentinelMark <+: line) (hc : ¬ cycleMark <+: line)
      (hh : ∀ bank, line ≠ heading bank) : Form line .sentinel
  | data {line : List Char} (hb : Text.trim line ≠ []) (hs : ¬ sentinelMark <+: line) :
    Form line .data

/-- The suffix of a cycle line gives a time, or none if it is empty. -/
inductive Timing : List Char → Option UInt64 → Prop
  | absent : Timing [] none
  | given {suffix : List Char} {n : Nat} (h : Decimal.Spells suffix n) :
    Timing suffix (some (UInt64.ofNat n))

/-- A line maps a name to an address: the name before the first comma, the address behind it. -/
def Maps (line : List Char) (m : Mapping) : Prop :=
  ∃ before after, line = before ++ ',' :: after ∧ ',' ∉ before ∧ Text.trim before = m.name ∧
    m.name ≠ [] ∧ Decimal.Spells (Text.trim after) m.address

/-- A line that ends the records, the bank that it selects and the cycle time that it gives. -/
inductive Ends (line : List Char) : Bank → Option UInt64 → Prop
  | heading {bank : Bank} (h : Form line (.heading bank)) : Ends line bank none
  | cycle {suffix : List Char} {time : Option UInt64} (h : Form line (.cycle suffix))
      (ht : Timing suffix time) : Ends line .bit time

/-- The letter of a kind of pins with a numeral behind it belongs to the bank of these pins, and any
other name to the bank that is selected. -/
inductive Belongs (selected : Bank) : List Char → Bank → Prop
  | pin (kind : PinKind) {digits : List Char} (h : Decimal.Numeral digits) :
    Belongs selected (kind.letter :: digits) kind.bank
  | other {name : List Char} (h : ∀ (kind : PinKind) (digits : List Char), Decimal.Numeral digits →
      name ≠ kind.letter :: digits) : Belongs selected name selected

inductive Statement
  | nothing
  | bank (selected : Bank)
  | time (given : Option UInt64)
  | mapping (m : Mapping)

inductive Says (line : List Char) : Statement → Prop
  | blank (h : Form line .blank) : Says line .nothing
  | sentinel (h : Form line .sentinel) : Says line .nothing
  | heading {bank : Bank} (h : Form line (.heading bank)) : Says line (.bank bank)
  | cycle {suffix : List Char} {time : Option UInt64} (h : Form line (.cycle suffix))
      (ht : Timing suffix time) : Says line (.time time)
  | mapping {m : Mapping} (h : Form line .data) (hm : Maps line m) : Says line (.mapping m)

namespace Statement

def bankAfter (selected : Bank) : Statement → Bank
  | .bank b => b
  | _ => selected

/-- A mapped address is a cell of the bank of its name. -/
def Fits (g : Geometry) (selected : Bank) : Statement → Prop
  | .mapping m => ∃ bank, Belongs selected m.name bank ∧ m.address < g.capacity bank
  | _ => True

end Statement

/-- Every statement fits, given the bank selected before the first one. -/
def Admitted (g : Geometry) : Bank → List Statement → Prop
  | _, [] => True
  | selected, st :: rest => st.Fits g selected ∧ Admitted g (st.bankAfter selected) rest

section Banks

variable {g : Geometry} {m : Mapping} {selected bank : Bank}

theorem Mapping.bank_of_pin {pin : Pin} (h : m.pin? = some pin) (bank : Bank) :
    m.bank bank = pin.kind.bank := by
  rw [Mapping.bank, h]

theorem belongs_bank (m : Mapping) (selected : Bank) :
    Belongs selected m.name (m.bank selected) := by
  cases hp : m.pin? with
  | none =>
    have hother : ∀ (kind : PinKind) (digits : List Char), Decimal.Numeral digits →
        m.name ≠ kind.letter :: digits := by
      intro kind digits hd hname
      have hsome : m.pin? = some _ := hname ▸ Pin.ofName?_of_numeral hd kind
      rw [hp] at hsome
      cases hsome
    rw [Mapping.bank, hp]
    exact .other hother
  | some pin =>
    obtain ⟨digits, hname, hd, -⟩ := Pin.ofName?_eq_some_iff.1 hp
    rw [Mapping.bank_of_pin hp, hname]
    exact .pin pin.kind hd

theorem Belongs.bank_eq (h : Belongs selected m.name bank) : m.bank selected = bank := by
  generalize hname : m.name = name at h
  cases h with
  | pin kind hd => rw [Mapping.bank, Mapping.pin?, hname, Pin.ofName?_of_numeral hd]
  | other h =>
    cases hp : m.pin? with
    | none => rw [Mapping.bank, hp]
    | some pin =>
      obtain ⟨digits, hpin, hd, -⟩ := Pin.ofName?_eq_some_iff.1 hp
      exact absurd (hname.symm.trans hpin) (h pin.kind digits hd)

/-- The bank that is read off a name is the one it belongs to. -/
theorem belongs_iff : Belongs selected m.name bank ↔ m.bank selected = bank := by
  constructor
  · exact Belongs.bank_eq
  · rintro rfl
    exact belongs_bank m selected

theorem Statement.fits_mapping_iff :
    (Statement.mapping m).Fits g selected ↔ m.address < g.capacity (m.bank selected) := by
  simp only [Fits, belongs_iff, exists_eq_left']

end Banks

section Lines

variable {line suffix : List Char}

theorem trim_ne_nil_of_sentinel (h : sentinelMark <+: line) : Text.trim line ≠ [] := by
  obtain ⟨rest, rfl⟩ := h
  intro ht
  have hb := Text.trim_eq_nil_iff.1 ht '$' (by simp [sentinelMark])
  exact absurd hb (by decide)

theorem sentinel_heading (bank : Bank) : sentinelMark <+: heading bank := by
  cases bank
  · exact ⟨['b', 'i', 't', 's'], rfl⟩
  · exact ⟨['i', 'n', 't', '1', '6', 's'], rfl⟩

theorem sentinel_cycle (suffix : List Char) : sentinelMark <+: cycleMark ++ suffix :=
  ⟨['c', 'y', 'c', 'l', 'e'] ++ suffix, rfl⟩

theorem cycle_ne_heading (suffix : List Char) (bank : Bank) :
    cycleMark ++ suffix ≠ heading bank := by
  cases bank <;> simp [cycleMark, heading]

theorem isPrefixOf?_eq_some_iff {mark rest : List Char} :
    mark.isPrefixOf? line = some rest ↔ line = mark ++ rest := by
  induction mark generalizing line with
  | nil => simp [List.isPrefixOf?]
  | cons c mark ih =>
    cases line with
    | nil => simp [List.isPrefixOf?]
    | cons d line =>
      by_cases h : c = d
      · simp [List.isPrefixOf?, h, ih]
      · simp [List.isPrefixOf?, h, Ne.symm h]

theorem isPrefixOf?_eq_none_iff {mark : List Char} :
    mark.isPrefixOf? line = none ↔ ¬ mark <+: line := by
  rw [← Option.not_isSome_iff_eq_none, Option.isSome_iff_exists]
  refine not_congr ⟨?_, ?_⟩
  · rintro ⟨rest, h⟩
    exact ⟨rest, (isPrefixOf?_eq_some_iff.1 h).symm⟩
  · rintro ⟨rest, h⟩
    exact ⟨rest, isPrefixOf?_eq_some_iff.2 h.symm⟩

theorem form_classify (line : List Char) : Form line (Line.classify line) := by
  unfold Line.classify
  split
  · next hblank => exact .blank hblank
  split
  · next hbit => exact hbit ▸ .heading .bit
  split
  · next hint => exact hint ▸ .heading .int
  next hblank hbit hint =>
  split
  · next suffix h =>
    rw [isPrefixOf?_eq_some_iff.1 h]
    exact .cycle suffix
  · next h =>
    split
    · next hs =>
      refine .sentinel (List.isPrefixOf_iff_prefix.1 hs) (isPrefixOf?_eq_none_iff.1 h) ?_
      intro bank
      cases bank
      · exact hbit
      · exact hint
    · next hs => exact .data hblank fun hp => hs (List.isPrefixOf_iff_prefix.2 hp)

theorem classify_of_form {k : Line} (h : Form line k) : Line.classify line = k := by
  cases h with
  | blank h => rw [Line.classify, if_pos h]
  | heading bank => cases bank <;> rfl
  | cycle suffix =>
    rw [Line.classify, if_neg (trim_ne_nil_of_sentinel (sentinel_cycle suffix)),
      if_neg (cycle_ne_heading suffix _), if_neg (cycle_ne_heading suffix _),
      isPrefixOf?_eq_some_iff.2 rfl]
  | sentinel hs hc hh =>
    rw [Line.classify, if_neg (trim_ne_nil_of_sentinel hs), if_neg (hh _), if_neg (hh _),
      isPrefixOf?_eq_none_iff.2 hc]
    exact if_pos (List.isPrefixOf_iff_prefix.2 hs)
  | data hb hs =>
    have hh : ∀ bank, line ≠ heading bank := by
      rintro bank rfl
      exact hs (sentinel_heading bank)
    have hc : ¬ cycleMark <+: line := by
      rintro ⟨suffix, rfl⟩
      exact hs (sentinel_cycle suffix)
    rw [Line.classify, if_neg hb, if_neg (hh _), if_neg (hh _), isPrefixOf?_eq_none_iff.2 hc]
    exact if_neg fun h => hs (List.isPrefixOf_iff_prefix.1 h)

theorem classify_eq_iff {k : Line} : Line.classify line = k ↔ Form line k := by
  constructor
  · rintro rfl
    exact form_classify line
  · exact classify_of_form

theorem Form.unique {k l : Line} (h : Form line k) (h' : Form line l) : k = l :=
  (classify_of_form h).symm.trans (classify_of_form h')

theorem cycleTime?_eq_some_iff {time : Option UInt64} :
    cycleTime? suffix = some time ↔ Timing suffix time := by
  unfold cycleTime?
  split
  · next h =>
    subst h
    constructor
    · intro ht
      cases ht
      exact .absent
    · intro ht
      cases ht with
      | absent => rfl
      | given h => exact absurd rfl h.ne_nil
  · next hne =>
    rw [Option.map_eq_some_iff]
    constructor
    · rintro ⟨n, hn, rfl⟩
      exact .given (Decimal.word?_eq_some_iff.1 hn)
    · intro ht
      cases ht with
      | absent => exact absurd rfl hne
      | given h => exact ⟨_, Decimal.word?_eq_some_iff.2 h, rfl⟩

theorem Timing.unique {time time' : Option UInt64} (h : Timing suffix time)
    (h' : Timing suffix time') : time = time' :=
  Option.some.inj ((cycleTime?_eq_some_iff.2 h).symm.trans (cycleTime?_eq_some_iff.2 h'))

theorem takeWhile_comma {before after : List Char} (h : ',' ∉ before) :
    (before ++ ',' :: after).takeWhile (· ≠ ',') = before := by
  have hb : ∀ c ∈ before, decide (c ≠ ',') = true := by
    intro c hc
    exact decide_eq_true fun he => h (he ▸ hc)
  rw [List.takeWhile_append_of_pos hb, List.takeWhile_cons_of_neg (by simp), List.append_nil]

theorem dropWhile_comma {before after : List Char} (h : ',' ∉ before) :
    (before ++ ',' :: after).dropWhile (· ≠ ',') = ',' :: after := by
  have hb : ∀ c ∈ before, decide (c ≠ ',') = true := by
    intro c hc
    exact decide_eq_true fun he => h (he ▸ hc)
  rw [List.dropWhile_append_of_pos hb, List.dropWhile_cons_of_neg (by simp)]

theorem exists_of_dropWhile_comma {c : Char} {after : List Char}
    (h : line.dropWhile (· ≠ ',') = c :: after) :
    line = line.takeWhile (· ≠ ',') ++ ',' :: after ∧ ',' ∉ line.takeWhile (· ≠ ',') := by
  have hc : c = ',' := by
    have hn := List.head?_dropWhile_not (fun d => decide (d ≠ ',')) line
    rw [h] at hn
    simpa using hn
  subst hc
  constructor
  · rw [← h, List.takeWhile_append_dropWhile]
  · intro hm
    exact absurd (List.mem_takeWhile_imp hm) (by simp)

theorem ofLine?_eq_some_iff {m : Mapping} : Mapping.ofLine? line = some m ↔ Maps line m := by
  constructor
  · intro h
    unfold Mapping.ofLine? at h
    split at h
    · exact absurd h (by simp)
    · next c after hd =>
      obtain ⟨hline, hcomma⟩ := exists_of_dropWhile_comma hd
      simp only at h
      split_ifs at h with hname
      obtain ⟨n, hn, rfl⟩ := Option.map_eq_some_iff.1 h
      exact ⟨_, after, hline, hcomma, rfl, hname, Decimal.word?_eq_some_iff.1 hn⟩
  · rintro ⟨before, after, rfl, hcomma, hname, hne, hn⟩
    simp only [Mapping.ofLine?, dropWhile_comma hcomma, takeWhile_comma hcomma, hname]
    rw [if_neg hne, Decimal.word?_eq_some_iff.2 hn]
    rfl

theorem Maps.unique {m₁ m₂ : Mapping} (h₁ : Maps line m₁) (h₂ : Maps line m₂) : m₁ = m₂ :=
  Option.some.inj ((ofLine?_eq_some_iff.2 h₁).symm.trans (ofLine?_eq_some_iff.2 h₂))

/-- A line says one statement. -/
theorem Says.unique {st st' : Statement} (h : Says line st) (h' : Says line st') : st = st' := by
  cases h with
  | blank hf | sentinel hf =>
    cases h' with
    | blank | sentinel => rfl
    | heading hf' | cycle hf' | mapping hf' => cases hf.unique hf'
  | heading hf =>
    cases h' with
    | heading hf' =>
      cases hf.unique hf'
      rfl
    | blank hf' | sentinel hf' | cycle hf' | mapping hf' => cases hf.unique hf'
  | cycle hf ht =>
    cases h' with
    | cycle hf' ht' =>
      cases hf.unique hf'
      rw [ht.unique ht']
    | blank hf' | sentinel hf' | heading hf' | mapping hf' => cases hf.unique hf'
  | mapping hf hm =>
    cases h' with
    | mapping _ hm' => rw [hm.unique hm']
    | blank hf' | sentinel hf' | heading hf' | cycle hf' => cases hf.unique hf'

theorem readCycleTime_eq_ok_iff {number : Nat} {time : Option UInt64} :
    readCycleTime number line suffix = .ok time ↔ Timing suffix time := by
  rw [← cycleTime?_eq_some_iff, readCycleTime]
  cases cycleTime? suffix with
  | none => simp
  | some t => simp

end Lines

theorem exists_of_mem_left {α β : Type} {R : α → β → Prop} {l : List α} {m : List β} {a : α}
    (h : List.Forall₂ R l m) (ha : a ∈ l) : ∃ b, R a b := by
  induction h with
  | nil => exact absurd ha (by simp)
  | cons hab _ ih =>
    rcases List.mem_cons.1 ha with rfl | ha
    · exact ⟨_, hab⟩
    · exact ih ha

end LadderMachine.Container
