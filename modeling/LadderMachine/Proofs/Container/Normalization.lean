import LadderMachine.Proofs.Container.RoundTrip

/-!
# Writing normalizes

The line of a name that starts with a mark says nothing once it has been written, unless it looks like
a cycle line; then the text cannot be read any more. So what comes back from an image that has been
read are its unmarked names with the same program and cycle time, and that comes back unchanged from
then on.
-/

namespace LadderMachine

def SymbolTable.filter (p : String → Bool) (t : SymbolTable) : SymbolTable :=
  ⟨t.entries.filter fun e => p e.1, t.sorted.filter _⟩

def Symbols.filter (p : String → Bool) (s : Symbols) : Symbols :=
  ⟨s.bits.filter p, s.integers.filter p⟩

theorem Symbols.entries_filter (p : String → Bool) (s : Symbols) (bank : Bank) :
    (s.filter p).entries bank = (s.entries bank).filter fun e => p e.1 := by
  cases bank <;> rfl

theorem Program.eq_of_toList {p q : Program}
    (h : p.instructions.toList = q.instructions.toList) : p = q := by
  obtain ⟨instructions⟩ := p
  obtain ⟨instructions'⟩ := q
  obtain rfl : instructions = instructions' := Array.toList_inj.1 h
  rfl

namespace Container

variable {text : String} {config : Config} {image i j : Image} {c : Contents}
  {ls : List (List Char)} {line suffix : List Char} {bank : Bank} {e : String × Nat} {g : Geometry}
  {instructions : List Instruction} {symbols : Symbols} {cycleTime : UInt64}

def unmarked (name : String) : Bool := ¬ sentinelMark <+: name.toList

/-- What the line of an entry says once it has been written: a name with a mark is lost. -/
def Statement.ofEntry (e : String × Nat) : Statement :=
  if unmarked e.1 then .mapping (.ofEntry e) else .nothing

def Statement.isNothing : Statement → Bool
  | .nothing => true
  | _ => false

section CycleLines

theorem timing_of_tells (ht : Tells ls c) (hl : line ∈ ls) (hf : Form line (.cycle suffix)) :
    ∃ time, Timing suffix time := by
  have hform {k : Line} (h : Form line k) : k = .cycle suffix := h.unique hf
  obtain ⟨instructions, selected, given, statements⟩ := c
  obtain ⟨records, last, metadata, rfl, hrecords, hends, hsays⟩ := ht
  simp only [List.mem_cons, List.mem_append] at hl
  rcases hl with rfl | hl | rfl | hl
  · have hsignature : Form signature .sentinel := form_classify signature
    exact absurd (hform hsignature) (by simp)
  · obtain ⟨_, hspells⟩ := exists_of_mem_left hrecords hl
    exact absurd (hform (form_of_spells hspells)) (by simp)
  · cases hends with
    | heading h => exact absurd (hform h) (by simp)
    | cycle h htime => exact ⟨_, Line.cycle.inj (hform h) ▸ htime⟩
  · obtain ⟨_, hsaid⟩ := exists_of_mem_left hsays hl
    cases hsaid with
    | blank h | sentinel h | heading h | mapping h => exact absurd (hform h) (by simp)
    | cycle h htime => exact ⟨_, Line.cycle.inj (hform h) ▸ htime⟩

theorem Timing.no_comma {time : Option UInt64} (h : Timing suffix time) : ',' ∉ suffix := by
  cases h with
  | absent => simp
  | given h =>
    obtain ⟨digits, hs, -, hd, -⟩ := h
    have hn : ',' ∉ digits := fun hm => absurd (hd _ hm) (by decide)
    rcases hs with rfl | rfl <;> simp [hn]

theorem no_cycle_of_read_write
    (h : (read (write instructions symbols cycleTime) config).value = .ok image)
    (hfeed : ∀ bank, ∀ e ∈ symbols.entries bank, '\n' ∉ e.1.toList)
    (he : e ∈ symbols.entries bank) : ¬ cycleMark <+: e.1.toList := by
  rintro ⟨rest, hname⟩
  obtain ⟨c, ht, -⟩ := read_eq_ok_iff.1 h
  rw [lines_write hfeed] at ht
  have hline : mappingLine e = cycleMark ++ (rest ++ ',' :: Nat.toDigits 10 e.2) := by
    rw [mappingLine, ← hname, List.append_assoc]
  have hmem : mappingLine e ∈ writtenLines instructions symbols cycleTime := by
    have hm := List.mem_map_of_mem (f := mappingLine) he
    cases bank <;> simp [writtenLines, bankLines, hm]
  obtain ⟨time, htime⟩ := timing_of_tells ht hmem (hline ▸ Form.cycle _)
  exact htime.no_comma (Text.mem_trim (by simp) (by decide))

end CycleLines

theorem says_ofEntry (h : Held g bank e) (hn : e.2 < UInt64.size)
    (hc : ¬ cycleMark <+: e.1.toList) : Says (mappingLine e) (.ofEntry e) := by
  by_cases hm : sentinelMark <+: e.1.toList
  · have hnothing : Statement.ofEntry e = .nothing := by simp [Statement.ofEntry, unmarked, hm]
    rw [hnothing]
    refine .sentinel (.sentinel (hm.trans (List.prefix_append _ _)) ?_ ?_)
    · exact fun h => hc (prefix_of_prefix_append_cons (by decide) h)
    · intro bank hb
      have hcomma : ',' ∈ heading bank := hb ▸ by simp [mappingLine]
      cases bank <;> exact absurd hcomma (by decide)
  · have hmapping : Statement.ofEntry e = .mapping (.ofEntry e) := by
      simp [Statement.ofEntry, unmarked, hm]
    rw [hmapping]
    exact says_mappingLine ⟨h, hm⟩ hn

section Nothing

variable {sts : List Statement}

theorem foldl_take_filter (sts : List Statement) (s : Metadata) :
    (sts.filter (!·.isNothing)).foldl Metadata.take s = sts.foldl Metadata.take s := by
  induction sts generalizing s with
  | nil => rfl
  | cons st rest ih => cases st <;> exact ih _

theorem admitted_filter_iff :
    Admitted g bank (sts.filter (!·.isNothing)) ↔ Admitted g bank sts := by
  induction sts generalizing bank with
  | nil => exact Iff.rfl
  | cons st rest ih =>
    cases st with
    | nothing => exact ih.trans ⟨fun h => ⟨trivial, h⟩, And.right⟩
    | bank | time | mapping => exact and_congr_right fun _ => ih

theorem filter_map_ofEntry (es : List (String × Nat)) :
    (es.map Statement.ofEntry).filter (!·.isNothing) =
      (es.filter fun e => unmarked e.1).map (.mapping ∘ .ofEntry) := by
  induction es with
  | nil => rfl
  | cons e es ih =>
    by_cases hu : unmarked e.1 = true
    · have hs : Statement.ofEntry e = .mapping (.ofEntry e) := if_pos hu
      rw [List.map_cons, hs, List.filter_cons_of_pos rfl, List.filter_cons, if_pos hu, List.map_cons,
        ih]
      rfl
    · have hs : Statement.ofEntry e = .nothing := if_neg hu
      rw [List.map_cons, hs, List.filter_cons_of_neg (by decide), List.filter_cons, if_neg hu, ih]

theorem filter_statements_saying :
    (Contents.saying .ofEntry instructions symbols cycleTime).statements.filter (!·.isNothing) =
      (Contents.written instructions (symbols.filter unmarked) cycleTime).statements := by
  simp only [Contents.saying, Contents.written, List.filter_append, List.filter_cons,
    filter_map_ofEntry, Symbols.entries_filter]
  rfl

end Nothing

/-- Written names come back without the marked ones. -/
theorem read_write_eq_ok (hw : WellFormed config.geometry instructions)
    (h : ∀ bank, ∀ e ∈ symbols.entries bank, Held config.geometry bank e ∧ e.2 < UInt64.size)
    (hc : ∀ bank, ∀ e ∈ symbols.entries bank, ¬ cycleMark <+: e.1.toList) :
    (read (write instructions symbols cycleTime) config).value =
      .ok ((Contents.written instructions (symbols.filter unmarked) cycleTime).image config) := by
  have hheld : ∀ bank, ∀ e ∈ (symbols.filter unmarked).entries bank,
      Held config.geometry bank e := by
    intro bank e he
    rw [Symbols.entries_filter] at he
    exact (h bank e (List.mem_of_mem_filter he)).1
  have hsound : (Contents.written instructions (symbols.filter unmarked) cycleTime).Sound config :=
    sound_written hheld rfl hw
  rw [read_eq_ok_iff, lines_write fun bank e he => (h bank e he).1.no_feed]
  refine ⟨.saying .ofEntry instructions symbols cycleTime, ?_, ⟨?_, hw⟩, ?_⟩
  · exact tells_saying fun bank e he => says_ofEntry (h bank e he).1 (h bank e he).2 (hc bank e he)
  · rw [← admitted_filter_iff, filter_statements_saying]
    exact hsound.admitted
  · rw [Contents.image, Contents.image, Contents.metadata, Contents.metadata,
      ← foldl_take_filter (Contents.saying _ _ _ _).statements, filter_statements_saying]
    rfl

/-- An image that has been read can be read again after it has been written, unless a name in it looks
like a cycle line. -/
theorem exists_read_writeImage_iff (h : (read text config).value = .ok i) :
    (∃ j, (read (writeImage i) config).value = .ok j) ↔
      ∀ bank, ∀ e ∈ i.symbols.entries bank, ¬ cycleMark <+: e.1.toList := by
  constructor
  · rintro ⟨j, hj⟩ bank e he
    exact no_cycle_of_read_write hj (fun _ _ hd => (held_of_read h hd).1.no_feed) he
  · intro hc
    exact ⟨_, read_write_eq_ok (wellFormed_of_read h) (fun _ _ he => held_of_read h he) hc⟩

/-- What comes back from an image that has been written is the image without its marked names, where
the order of the names decides on the pins. Writing it once more changes nothing. -/
theorem read_writeImage_normalizes (hi : (read text config).value = .ok i)
    (hj : (read (writeImage i) config).value = .ok j) :
    j.program = i.program ∧ j.cycleTime = i.cycleTime ∧
      (∀ bank, j.symbols.entries bank =
        (i.symbols.entries bank).filter fun e => ¬ sentinelMark <+: e.1.toList) ∧
      (read (writeImage j) config).value = .ok j := by
  have hheld : ∀ bank, ∀ e ∈ i.symbols.entries bank,
      Held config.geometry bank e ∧ e.2 < UInt64.size := fun _ _ he => held_of_read hi he
  have hw := wellFormed_of_read hi
  have hback : (read (writeImage i) config).value = .ok _ :=
    read_write_eq_ok hw hheld ((exists_read_writeImage_iff hi).1 ⟨j, hj⟩)
  have hwritable : ∀ bank, ∀ e ∈ (i.symbols.filter unmarked).entries bank,
      Writable config.geometry bank e ∧ e.2 < UInt64.size := by
    intro bank e he
    rw [Symbols.entries_filter, List.mem_filter] at he
    obtain ⟨hmem, hu⟩ := he
    exact ⟨⟨(hheld bank e hmem).1, of_decide_eq_true hu⟩, (hheld bank e hmem).2⟩
  have hreturns : Returns config i.program.instructions.toList (i.symbols.filter unmarked)
      i.cycleTime j := by
    rw [Except.ok.inj (hj.symm.trans hback)]
    exact returns_written hw hwritable
  refine ⟨?_, hreturns.cycleTime_eq, fun bank => ?_, ?_⟩
  · exact Program.eq_of_toList hreturns.instructions_eq
  · rw [hreturns.symbols_eq, Symbols.entries_filter]
    rfl
  · rw [writeImage, hreturns.instructions_eq, hreturns.symbols_eq, hreturns.cycleTime_eq]
    exact hreturns.read_eq

/-- A marked name is lost, and of two spellings of one pin the last in name order counts, once. -/
theorem read_writeImage_normalizes_once : ∃ i j,
    (read "$$LDcode\nff0000000000000000000000\n$$bits\nX1,5\nX01,3\n $$a,0\n" {}).value = .ok i ∧
      (read (writeImage i) {}).value = .ok j ∧ j ≠ i ∧
      j.symbols.entries .bit = [("X01", 3), ("X1", 5)] ∧ (read (writeImage j) {}).value = .ok j := by
  have hi : (read "$$LDcode\nff0000000000000000000000\n$$bits\nX1,5\nX01,3\n $$a,0\n" {}).value =
      .ok ⟨⟨#[⟨255, 0, 0, 0, 0⟩]⟩, (PinMap.ofCounts {}).insert ⟨.input, 1⟩ 3,
        ((({} : Symbols).insert .bit "X1" 5).insert .bit "X01" 3).insert .bit "$$a" 0, 10000⟩ := by
    rfl
  have hj : (read (writeImage ⟨⟨#[⟨255, 0, 0, 0, 0⟩]⟩, (PinMap.ofCounts {}).insert ⟨.input, 1⟩ 3,
        ((({} : Symbols).insert .bit "X1" 5).insert .bit "X01" 3).insert .bit "$$a" 0, 10000⟩)
      {}).value = .ok ⟨⟨#[⟨255, 0, 0, 0, 0⟩]⟩, (PinMap.ofCounts {}).insert ⟨.input, 1⟩ 5,
        (({} : Symbols).insert .bit "X1" 5).insert .bit "X01" 3, 10000⟩ := by rfl
  obtain ⟨-, -, hentries, hback⟩ := read_writeImage_normalizes hi hj
  refine ⟨_, _, hi, hj, fun h => ?_, (hentries .bit).trans (by decide), hback⟩
  exact absurd (congrArg Image.pins h) (by decide)

end Container

end LadderMachine
