import LadderMachine.Container.Writer
import LadderMachine.Proofs.Container.Tables

/-!
# What is written

Written lines are the lines of the written text, and they tell the same contents again, provided
that the names are `Writable`: a name that is blank, holds a comma or a line feed, starts with a
mark, or stands in the wrong bank is lost. The tables that come back hold all the names, and for each
pin the last name that stands for it.
-/

namespace LadderMachine.Container

/-- An entry of a bank as images hold them. -/
structure Held (g : Geometry) (bank : Bank) (e : String × Nat) : Prop where
  ne_nil : e.1.toList ≠ []
  no_comma : ',' ∉ e.1.toList
  no_feed : '\n' ∉ e.1.toList
  trimmed : Text.Trimmed e.1.toList
  bank_eq : ∀ pin, Pin.ofName? e.1.toList = some pin → pin.kind.bank = bank
  address_lt : e.2 < g.capacity bank

/-- An entry that is read again after it has been written. -/
structure Writable (g : Geometry) (bank : Bank) (e : String × Nat) : Prop extends Held g bank e where
  unmarked : ¬ sentinelMark <+: e.1.toList

def Mapping.ofEntry (e : String × Nat) : Mapping := ⟨e.1.toList, e.2⟩

def Contents.written (instructions : List Instruction) (symbols : Symbols) (cycleTime : UInt64) :
    Contents where
  instructions := instructions
  bank := .bit
  time := none
  statements := (symbols.entries .bit).map (.mapping ∘ .ofEntry) ++ .bank .int ::
    ((symbols.entries .int).map (.mapping ∘ .ofEntry) ++ [.time (some cycleTime)])

variable {instructions : List Instruction} {symbols : Symbols} {cycleTime : UInt64} {g : Geometry}
  {bank : Bank} {e : String × Nat} {line : List Char} {n : Nat}

section Lines

theorem mem_writtenLines (h : line ∈ writtenLines instructions symbols cycleTime) :
    line = signature ∨ (∃ bank, line = heading bank) ∨
      line = cycleMark ++ Nat.toDigits 10 cycleTime.toNat ∨ (∃ i ∈ instructions, line = i.toHex) ∨
      ∃ bank, ∃ e ∈ symbols.entries bank, line = mappingLine e := by
  simp only [writtenLines, bankLines, List.mem_append, List.mem_cons, List.mem_map,
    List.not_mem_nil, or_false] at h
  rcases h with (((rfl | ⟨i, hi, rfl⟩) | rfl | ⟨e, he, rfl⟩) | rfl | ⟨e, he, rfl⟩) | rfl
  · exact .inl rfl
  · exact .inr (.inr (.inr (.inl ⟨i, hi, rfl⟩)))
  · exact .inr (.inl ⟨.bit, rfl⟩)
  · exact .inr (.inr (.inr (.inr ⟨.bit, e, he, rfl⟩)))
  · exact .inr (.inl ⟨.int, rfl⟩)
  · exact .inr (.inr (.inr (.inr ⟨.int, e, he, rfl⟩)))
  · exact .inr (.inr (.inl rfl))

theorem isDigit_of_mem_toDigits {c : Char} (h : c ∈ Nat.toDigits 10 n) : c.isDigit = true :=
  Nat.isDigit_of_mem_toDigits (by decide) (by decide) h

theorem trimmed_toDigits (n : Nat) : Text.Trimmed (Nat.toDigits 10 n) := by
  constructor
  · intro c hc
    exact Text.isBlank_of_isDigit c (isDigit_of_mem_toDigits (List.mem_of_mem_head? hc))
  · intro c hc
    exact Text.isBlank_of_isDigit c (isDigit_of_mem_toDigits (List.mem_of_getLast? hc))

theorem not_mem_toDigits {c : Char} (h : c.isDigit = false) : c ∉ Nat.toDigits 10 n := by
  intro hc
  rw [isDigit_of_mem_toDigits hc] at h
  exact absurd h (by simp)

theorem not_mem_toHex {i : Instruction} {c : Char} (h : ¬ Hexadecimal.IsDigit c) : c ∉ i.toHex :=
  fun hc => h (Instruction.isDigit_of_mem_toHex hc)

theorem getLast?_ne_return {before : List Char} :
    (before ++ Nat.toDigits 10 n).getLast? ≠ some '\r' := by
  intro h
  have hne : Nat.toDigits 10 n ≠ [] := Nat.toDigits_ne_nil
  rw [List.getLast?_append_of_ne_nil _ hne] at h
  exact not_mem_toDigits (by decide) (List.mem_of_getLast? h)

theorem feed_not_mem (h : ∀ bank, ∀ e ∈ symbols.entries bank, '\n' ∉ e.1.toList)
    (hl : line ∈ writtenLines instructions symbols cycleTime) : '\n' ∉ line := by
  have hdigits : ∀ m, '\n' ∉ Nat.toDigits 10 m := fun m => not_mem_toDigits (by decide)
  rcases mem_writtenLines hl with rfl | ⟨bank, rfl⟩ | rfl | ⟨i, _, rfl⟩ | ⟨bank, e, he, rfl⟩
  · decide
  · cases bank <;> decide
  · simp [cycleMark, hdigits]
  · exact not_mem_toHex (by rw [Hexadecimal.isDigit_iff]; decide)
  · simp [mappingLine, h bank e he, hdigits]

theorem return_not_last (hl : line ∈ writtenLines instructions symbols cycleTime) :
    line.getLast? ≠ some '\r' := by
  rcases mem_writtenLines hl with rfl | ⟨bank, rfl⟩ | rfl | ⟨i, _, rfl⟩ | ⟨bank, e, _, rfl⟩
  · decide
  · cases bank <;> decide
  · exact getLast?_ne_return
  · intro hlast
    have hr : '\r' ∉ i.toHex := not_mem_toHex (by rw [Hexadecimal.isDigit_iff]; decide)
    exact hr (List.mem_of_getLast? hlast)
  · rw [mappingLine, List.append_cons]
    exact getLast?_ne_return

/-- The text splits into the lines that were written unless a name holds a line feed. -/
theorem lines_write (h : ∀ bank, ∀ e ∈ symbols.entries bank, '\n' ∉ e.1.toList) :
    Text.lines (write instructions symbols cycleTime).toList =
      writtenLines instructions symbols cycleTime := by
  rw [write, String.toList_ofList]
  apply Text.lines_unlines
  · intro line hl
    exact feed_not_mem h hl
  · intro line hl
    exact return_not_last hl

end Lines

/-- A mark without the separator that starts a line starts the field before the separator. -/
theorem prefix_of_prefix_append_cons {mark name after : List Char} {c : Char} (hc : c ∉ mark)
    (h : mark <+: name ++ c :: after) : mark <+: name := by
  rcases List.prefix_or_prefix_of_prefix h (List.prefix_append name _) with h' | ⟨rest, rfl⟩
  · exact h'
  · rw [List.prefix_append_right_inj] at h
    cases rest with
    | nil => exact (List.append_nil name).symm ▸ List.prefix_rfl
    | cons d rest =>
      obtain ⟨_, ht⟩ := h
      have hd : d = c := (List.cons.inj ht).1
      exact absurd (by simp [hd]) hc

theorem unmarked_append_comma {name after : List Char} (h : ¬ sentinelMark <+: name) :
    ¬ sentinelMark <+: name ++ ',' :: after :=
  fun hm => h (prefix_of_prefix_append_cons (by decide) hm)

theorem maps_mappingLine (h : Held g bank e) (hn : e.2 < UInt64.size) :
    Maps (mappingLine e) (.ofEntry e) := by
  refine ⟨e.1.toList, Nat.toDigits 10 e.2, rfl, h.no_comma, h.trimmed.trim_eq, h.ne_nil, ?_⟩
  rw [(trimmed_toDigits e.2).trim_eq]
  exact Decimal.spells_toDigits hn

theorem says_mappingLine (h : Writable g bank e) (hn : e.2 < UInt64.size) :
    Says (mappingLine e) (.mapping (.ofEntry e)) := by
  have hform : Form (mappingLine e) .data := by
    apply Form.data
    · intro ht
      have hb := Text.trim_eq_nil_iff.1 ht ',' (by simp [mappingLine])
      exact absurd hb (by decide)
    · exact unmarked_append_comma h.unmarked
  exact .mapping hform (maps_mappingLine h.toHeld hn)

theorem says_cycleLine (cycleTime : UInt64) :
    Says (cycleMark ++ Nat.toDigits 10 cycleTime.toNat) (.time (some cycleTime)) := by
  have hspells := Decimal.spells_toDigits cycleTime.toNat_lt
  have ht := Timing.given hspells
  rw [UInt64.ofNat_toNat] at ht
  have hform := Form.cycle (Nat.toDigits 10 cycleTime.toNat)
  rw [(trimmed_toDigits _).trim_eq] at hform
  exact .cycle hform ht

theorem bank_ofEntry_eq_iff : (Mapping.ofEntry e).bank bank = bank ↔
    ∀ pin, Pin.ofName? e.1.toList = some pin → pin.kind.bank = bank := by
  unfold Mapping.bank
  split
  · next pin hp =>
    have hname : Pin.ofName? e.1.toList = some pin := hp
    simp [hname]
  · next hp =>
    have hname : Pin.ofName? e.1.toList = none := hp
    simp [hname]

theorem writable_iff : Writable g bank e ↔ e.1.toList ≠ [] ∧ ',' ∉ e.1.toList ∧
    '\n' ∉ e.1.toList ∧ Text.trim e.1.toList = e.1.toList ∧ (Mapping.ofEntry e).bank bank = bank ∧
    e.2 < g.capacity bank ∧ ¬ sentinelMark <+: e.1.toList := by
  rw [bank_ofEntry_eq_iff]
  constructor
  · intro h
    exact ⟨h.ne_nil, h.no_comma, h.no_feed, h.trimmed.trim_eq, h.bank_eq, h.address_lt, h.unmarked⟩
  · rintro ⟨hne, hcomma, hfeed, htrim, hbank, hlt, hmark⟩
    have htrimmed : Text.Trimmed e.1.toList := htrim ▸ Text.trimmed_trim e.1.toList
    exact ⟨⟨hne, hcomma, hfeed, htrimmed, hbank, hlt⟩, hmark⟩

instance : Decidable (Writable g bank e) := decidable_of_iff _ writable_iff.symm

theorem label_ofEntry (e : String × Nat) : (Mapping.ofEntry e).label = e.1 := by
  rw [Mapping.label, Mapping.ofEntry, String.ofList_toList]

theorem admitted_entries {es : List (String × Nat)} {rest : List Statement}
    (h : ∀ e ∈ es, Held g bank e) (hr : Admitted g bank rest) :
    Admitted g bank (es.map (.mapping ∘ .ofEntry) ++ rest) := by
  induction es with
  | nil => exact hr
  | cons e es ih =>
    have he := h e (by simp)
    refine ⟨Statement.fits_mapping_iff.2 ?_, ih fun d hd => h d (by simp [hd])⟩
    rw [bank_ofEntry_eq_iff.2 he.bank_eq]
    exact he.address_lt

theorem entered_entries {es : List (String × Nat)} {rest : List Statement}
    (h : ∀ e ∈ es, Held g bank e) : entered bank (es.map (.mapping ∘ .ofEntry) ++ rest) =
      es.map (fun e => (bank, .ofEntry e)) ++ entered bank rest := by
  induction es with
  | nil => rfl
  | cons e es ih =>
    have hrest := ih fun d hd => h d (by simp [hd])
    simp only [List.map_cons, List.cons_append, Function.comp_apply, entered]
    rw [bank_ofEntry_eq_iff.2 (h e (by simp)).bank_eq, hrest]

section Held

variable (h : ∀ bank, ∀ e ∈ symbols.entries bank, Held g bank e)
include h

theorem sound_written {config : Config} (hg : config.geometry = g)
    (hw : WellFormed g instructions) :
    (Contents.written instructions symbols cycleTime).Sound config := by
  subst hg
  refine ⟨?_, hw⟩
  apply admitted_entries (h .bit)
  refine ⟨trivial, ?_⟩
  apply admitted_entries (h .int)
  exact ⟨trivial, trivial⟩

theorem entered_written : entered .bit (Contents.written instructions symbols cycleTime).statements =
    (symbols.entries .bit).map (fun e => (.bit, .ofEntry e)) ++
      (symbols.entries .int).map (fun e => (.int, .ofEntry e)) := by
  rw [Contents.written, entered_entries (h .bit)]
  change _ ++ entered .int _ = _
  rw [entered_entries (h .int)]
  simp [entered]

/-- Where only names of one bank match, the last match is found among its entries. -/
theorem getLast?_entered_written (q : Bank × Mapping → Bool) (p : String × Nat → Bool)
    (hq : ∀ e ∈ symbols.entries bank, q (bank, .ofEntry e) = p e)
    (hother : ∀ b ≠ bank, ∀ e ∈ symbols.entries b, q (b, .ofEntry e) = false) :
    ((entered .bit (Contents.written instructions symbols cycleTime).statements).filter q).getLast?.map
      (·.2.address) = ((symbols.entries bank).filter p).getLast?.map Prod.snd := by
  have hsame : ((symbols.entries bank).map fun e => (bank, Mapping.ofEntry e)).filter q =
      ((symbols.entries bank).filter p).map fun e => (bank, Mapping.ofEntry e) := by
    rw [List.filter_map]
    exact congrArg _ (List.filter_congr hq)
  have hnone : ∀ b ≠ bank,
      ((symbols.entries b).map fun e => (b, Mapping.ofEntry e)).filter q = [] := by
    intro b hb
    rw [List.filter_map, List.map_eq_nil_iff, List.filter_eq_nil_iff]
    intro e he
    rw [Function.comp_apply, hother b hb e he]
    exact Bool.false_ne_true
  have hall : (entered .bit (Contents.written instructions symbols cycleTime).statements).filter q =
      ((symbols.entries bank).filter p).map fun e => (bank, Mapping.ofEntry e) := by
    rw [entered_written h, List.filter_append]
    cases bank with
    | bit => rw [hsame, hnone .int (by decide), List.append_nil]
    | int => rw [hsame, hnone .bit (by decide), List.nil_append]
  rw [hall, List.getLast?_map, Option.map_map]
  rfl

theorem symbols_written {config : Config} :
    ((Contents.written instructions symbols cycleTime).image config).symbols = symbols := by
  apply Symbols.ext_get?
  intro bank name
  rw [Contents.get?_symbols]
  refine (getLast?_entered_written h _ (fun e => e.1 = name) ?_ ?_).trans
    ((symbols.table bank).getLast?_filter_entries name)
  · intro e _
    simp [label_ofEntry]
  · intro b hb e _
    simp [hb]

/-- A pin comes back with the address of the last name that stands for it. -/
theorem get?_pins_written {config : Config} {kind : PinKind} {index : Nat}
    (hi : index < (PinMap.ofCounts config.pins).capacity kind) :
    ((Contents.written instructions symbols cycleTime).image config).pins.get? kind index =
      symbols.pinAddress? ⟨kind, index⟩ := by
  rw [Contents.get?_pins hi]
  apply getLast?_entered_written h
  · intro e _
    rfl
  · intro b hb e he
    apply decide_eq_false
    intro hp
    exact hb ((h b e he).bank_eq _ hp).symm

end Held

/-- What written lines tell, if the line of each entry says the given statement. -/
def Contents.saying (said : String × Nat → Statement) (instructions : List Instruction)
    (symbols : Symbols) (cycleTime : UInt64) : Contents where
  instructions := instructions
  bank := .bit
  time := none
  statements := (symbols.entries .bit).map said ++ .bank .int ::
    ((symbols.entries .int).map said ++ [.time (some cycleTime)])

theorem tells_saying {said : String × Nat → Statement}
    (h : ∀ bank, ∀ e ∈ symbols.entries bank, Says (mappingLine e) (said e)) :
    Tells (writtenLines instructions symbols cycleTime)
      (.saying said instructions symbols cycleTime) := by
  have hbank (bank : Bank) : List.Forall₂ Says ((symbols.entries bank).map mappingLine)
      ((symbols.entries bank).map said) := by
    rw [List.forall₂_map_left_iff, List.forall₂_map_right_iff, List.forall₂_same]
    exact h bank
  refine ⟨instructions.map Instruction.toHex, heading .bit,
    (symbols.entries .bit).map mappingLine ++ heading .int ::
      ((symbols.entries .int).map mappingLine ++ [cycleMark ++ Nat.toDigits 10 cycleTime.toNat]),
    ?_, ?_, ?_, ?_⟩
  · simp [writtenLines, bankLines]
  · rw [List.forall₂_map_left_iff]
    exact List.forall₂_same.2 fun i _ => i.spells_toHex
  · exact .heading (.heading .bit)
  · apply List.rel_append (hbank .bit)
    apply List.Forall₂.cons (.heading (.heading .int))
    apply List.rel_append (hbank .int)
    exact .cons (says_cycleLine cycleTime) .nil

theorem tells_writtenLines
    (h : ∀ bank, ∀ e ∈ symbols.entries bank, Writable g bank e ∧ e.2 < UInt64.size) :
    Tells (writtenLines instructions symbols cycleTime)
      (.written instructions symbols cycleTime) :=
  tells_saying fun bank e he => says_mappingLine (h bank e he).1 (h bank e he).2

theorem cycleTime_written {config : Config} :
    ((Contents.written instructions symbols cycleTime).image config).cycleTime = cycleTime := by
  rw [Contents.image, Contents.metadata, Contents.written, List.foldl_append, List.foldl_cons,
    List.foldl_append]
  rfl

/-- Writable contents are read again. -/
theorem read_write {config : Config} (hw : WellFormed config.geometry instructions)
    (h : ∀ bank, ∀ e ∈ symbols.entries bank, Writable config.geometry bank e ∧ e.2 < UInt64.size) :
    (read (write instructions symbols cycleTime) config).value =
      .ok ((Contents.written instructions symbols cycleTime).image config) := by
  have hheld : ∀ bank, ∀ e ∈ symbols.entries bank, Held config.geometry bank e :=
    fun bank e he => (h bank e he).1.toHeld
  rw [read_eq_ok_iff, lines_write fun bank e he => (hheld bank e he).no_feed]
  exact ⟨_, tells_writtenLines h, sound_written hheld rfl hw, rfl⟩

end LadderMachine.Container
