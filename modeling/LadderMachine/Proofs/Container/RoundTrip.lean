import LadderMachine.Proofs.Container.Written

/-!
# Writing and reading again

Every symbol of an image goes back to a line that maps its name, and so images hold names of a certain
form only (`held_of_read`). Names that start with a mark can be in an image, if their line starts with
a blank, but not in one that has been written before. Together with what writing keeps, this gives
the exact contents that come back from a written text, and the exact images that do.
-/

namespace LadderMachine.Container

variable {text : String} {config : Config} {image : Image} {c : Contents} {ls : List (List Char)}
  {line : List Char} {m : Mapping} {bank : Bank} {e : String × Nat} {g : Geometry}
  {instructions : List Instruction} {symbols : Symbols} {cycleTime : UInt64}

theorem exists_line_of_tells (ht : Tells ls c) (hs : c.Sound config)
    (he : e ∈ (c.image config).symbols.entries bank) :
    ∃ line ∈ ls, ∃ m, Form line .data ∧ Maps line m ∧ m.label = e.1 ∧ m.address = e.2 ∧
      (∃ b, bank = m.bank b) ∧ m.address < config.geometry.capacity bank := by
  obtain ⟨m, hm, hlabel, haddress⟩ := Contents.exists_entered he
  obtain ⟨records, last, metadata, rfl, -, -, hsays⟩ := ht
  obtain ⟨⟨line, hline, hform, hmaps⟩, hbank, hlt⟩ :=
    exists_line_of_mem_entered hsays hs.admitted hm
  have hmem : line ∈ signature :: (records ++ last :: metadata) := by simp [hline]
  exact ⟨line, hmem, m, hform, hmaps, hlabel, haddress, hbank, hlt⟩

theorem toList_eq_of_label (h : m.label = e.1) : e.1.toList = m.name := by
  rw [← h, Mapping.label, String.toList_ofList]

theorem held_of_maps (hfeed : '\n' ∉ line) (hm : Maps line m) (hlabel : m.label = e.1)
    (hbank : ∃ b, bank = m.bank b) (hlt : e.2 < g.capacity bank) : Held g bank e := by
  obtain ⟨before, after, rfl, hcomma, hname, hne, -⟩ := hm
  have hlist := toList_eq_of_label hlabel
  have hsub : ∀ d ∈ e.1.toList, d ∈ before := by
    intro d hd
    rw [hlist, ← hname] at hd
    exact Text.mem_of_mem_trim hd
  constructor
  · rwa [hlist]
  · exact fun h => hcomma (hsub _ h)
  · exact fun h => hfeed (List.mem_append_left _ (hsub _ h))
  · rw [hlist, ← hname]
    exact Text.trimmed_trim before
  · intro pin hp
    obtain ⟨b, rfl⟩ := hbank
    have hpin : m.pin? = some pin := by rw [Mapping.pin?, ← hlist, hp]
    exact (Mapping.bank_of_pin hpin b).symm
  · exact hlt

theorem held_of_read (h : (read text config).value = .ok image)
    (he : e ∈ image.symbols.entries bank) : Held config.geometry bank e ∧ e.2 < UInt64.size := by
  obtain ⟨c, ht, hs, rfl⟩ := read_eq_ok_iff.1 h
  obtain ⟨line, hline, m, -, hmaps, hlabel, haddress, hbank, hlt⟩ := exists_line_of_tells ht hs he
  rw [haddress] at hlt
  refine ⟨held_of_maps (Text.not_mem_of_mem_lines hline) hmaps hlabel hbank hlt, ?_⟩
  obtain ⟨-, -, -, -, -, -, digits, -, -, -, -, hn⟩ := hmaps
  rwa [← haddress]

theorem wellFormed_of_read (h : (read text config).value = .ok image) :
    WellFormed config.geometry image.program.instructions.toList := by
  obtain ⟨c, -, hs, rfl⟩ := read_eq_ok_iff.1 h
  exact hs.wellFormed

theorem capacity_of_read (h : (read text config).value = .ok image) (kind : PinKind) :
    image.pins.capacity kind = (PinMap.ofCounts config.pins).capacity kind := by
  obtain ⟨c, -, -, rfl⟩ := read_eq_ok_iff.1 h
  exact Contents.capacity_pins

theorem unmarked_of_read_write
    (h : (read (write instructions symbols cycleTime) config).value = .ok image)
    (hs : image.symbols = symbols) (he : e ∈ symbols.entries bank) :
    ¬ sentinelMark <+: e.1.toList := by
  have hheld : ∀ b, ∀ d ∈ symbols.entries b, Held config.geometry b d ∧ d.2 < UInt64.size :=
    fun b d hd => held_of_read h (hs ▸ hd)
  obtain ⟨c, ht, hsound, rfl⟩ := read_eq_ok_iff.1 h
  rw [lines_write fun b d hd => (hheld b d hd).1.no_feed] at ht
  obtain ⟨line, hline, m, hform, hmaps, hlabel, -⟩ := exists_line_of_tells ht hsound (hs ▸ he)
  have hdata : ¬ sentinelMark <+: line := by
    cases hform with
    | data _ hn => exact hn
  -- The line cannot have a mark, so it is the line of an entry, and the name in it is the entry's.
  rcases mem_writtenLines hline with rfl | ⟨b, rfl⟩ | rfl | ⟨i, _, rfl⟩ | ⟨b, d, hd, rfl⟩
  · exact absurd ⟨['L', 'D', 'c', 'o', 'd', 'e'], rfl⟩ hdata
  · exact absurd (sentinel_heading b) hdata
  · exact absurd (sentinel_cycle _) hdata
  · obtain ⟨before, after, hi, -⟩ := hmaps
    have hcomma : ',' ∈ i.toHex := by simp [hi]
    exact absurd hcomma (not_mem_toHex (by rw [Hexadecimal.isDigit_iff]; decide))
  · have hm := hmaps.unique (maps_mappingLine (hheld b d hd).1 (hheld b d hd).2)
    have hname : e.1.toList = d.1.toList := by rw [toList_eq_of_label hlabel, hm, Mapping.ofEntry]
    intro hmark
    rw [hname] at hmark
    exact hdata (hmark.trans (List.prefix_append _ _))

/-- An image with the given contents comes from the text that they are written as. -/
structure Returns (config : Config) (instructions : List Instruction) (symbols : Symbols)
    (cycleTime : UInt64) (image : Image) : Prop where
  read_eq : (read (write instructions symbols cycleTime) config).value = .ok image
  instructions_eq : image.program.instructions.toList = instructions
  symbols_eq : image.symbols = symbols
  cycleTime_eq : image.cycleTime = cycleTime

theorem writable_of_returns (h : Returns config instructions symbols cycleTime image)
    (he : e ∈ symbols.entries bank) : Writable config.geometry bank e ∧ e.2 < UInt64.size := by
  have hheld := held_of_read h.read_eq (h.symbols_eq ▸ he)
  exact ⟨⟨hheld.1, unmarked_of_read_write h.read_eq h.symbols_eq he⟩, hheld.2⟩

theorem returns_written (hw : WellFormed config.geometry instructions)
    (h : ∀ bank, ∀ e ∈ symbols.entries bank, Writable config.geometry bank e ∧ e.2 < UInt64.size) :
    Returns config instructions symbols cycleTime
      ((Contents.written instructions symbols cycleTime).image config) where
  read_eq := read_write hw h
  instructions_eq := rfl
  symbols_eq := symbols_written fun bank e he => (h bank e he).1.toHeld
  cycleTime_eq := cycleTime_written

theorem Returns.eq_image (h : Returns config instructions symbols cycleTime image) :
    image = (Contents.written instructions symbols cycleTime).image config := by
  have hw := wellFormed_of_read h.read_eq
  rw [h.instructions_eq] at hw
  have himage : (read (write instructions symbols cycleTime) config).value =
      .ok ((Contents.written instructions symbols cycleTime).image config) :=
    read_write hw fun _ _ he => writable_of_returns h he
  exact Except.ok.inj (h.read_eq.symm.trans himage)

theorem Returns.get?_pins (h : Returns config instructions symbols cycleTime image) {kind : PinKind}
    {index : Nat} (hi : index < image.pins.capacity kind) :
    image.pins.get? kind index = symbols.pinAddress? ⟨kind, index⟩ := by
  have himage := h.eq_image
  subst himage
  rw [Contents.capacity_pins] at hi
  exact get?_pins_written (fun _ _ he => (writable_of_returns h he).1.toHeld) hi

/-- Under a valid configuration, contents come back exactly if the program is valid and every entry is
writable; and then a pin has the address of the last name that stands for it. -/
theorem returns_iff (instructions : List Instruction) (symbols : Symbols) (cycleTime : UInt64)
    (config : Config) (hvalid : config.validate = .ok config) :
    ((∃ image, Returns config instructions symbols cycleTime image) ↔
      (∃ program, Program.validate instructions config.geometry = .ok program) ∧
        ∀ bank, ∀ e ∈ symbols.entries bank, Writable config.geometry bank e) ∧
    ∀ image, Returns config instructions symbols cycleTime image →
      ∀ kind, ∀ index < image.pins.capacity kind,
        image.pins.get? kind index = symbols.pinAddress? ⟨kind, index⟩ := by
  refine ⟨⟨?_, ?_⟩, fun image h kind index hi => h.get?_pins hi⟩
  · rintro ⟨image, h⟩
    have hw := wellFormed_of_read h.read_eq
    rw [h.instructions_eq] at hw
    exact ⟨Program.exists_validate_eq_ok_iff.2 hw, fun _ _ he => (writable_of_returns h he).1⟩
  · rintro ⟨hprogram, hwritable⟩
    have hw := Program.exists_validate_eq_ok_iff.1 hprogram
    refine ⟨_, returns_written hw fun bank e he => ⟨hwritable bank e he, ?_⟩⟩
    have hlt := (hwritable bank e he).address_lt
    have hcap := Config.capacity_le_of_validate hvalid bank
    have hmax : Config.maxCapacity < UInt64.size := by decide
    omega

/-- Two spellings of one pin: the pin has the address of the last one in name order. -/
theorem returns_two_spellings :
    Config.validate {} = .ok {} ∧ ∃ image,
      Returns {} [⟨255, 0, 0, 0, 0⟩] ((({} : Symbols).insert .bit "X1" 5).insert .bit "X01" 3) 7
        image ∧ image.pins.get? .input 1 = some 5 := by
  have hvalid : Config.validate {} = .ok {} := by rfl
  have hiff := returns_iff [⟨255, 0, 0, 0, 0⟩]
    ((({} : Symbols).insert .bit "X1" 5).insert .bit "X01" 3) 7 {} hvalid
  have hwritable : ∀ bank, ∀ e ∈
      ((({} : Symbols).insert .bit "X1" 5).insert .bit "X01" 3).entries bank, Writable {} bank e := by
    intro bank
    cases bank with
    | bit => decide
    | int => decide
  obtain ⟨image, himage⟩ := hiff.1.2 ⟨⟨_, by rfl⟩, hwritable⟩
  have hindex : 1 < image.pins.capacity .input := by
    rw [capacity_of_read himage.read_eq]
    decide
  exact ⟨hvalid, image, himage, hiff.2 image himage .input 1 hindex⟩

theorem image_eq {i j : Image} (hprogram : i.program.instructions.toList = j.program.instructions.toList)
    (hpins : i.pins = j.pins) (hsymbols : i.symbols = j.symbols) (htime : i.cycleTime = j.cycleTime) :
    i = j := by
  obtain ⟨⟨instructions⟩, pins, symbols, cycleTime⟩ := i
  obtain ⟨⟨instructions'⟩, pins', symbols', cycleTime'⟩ := j
  obtain rfl : instructions = instructions' := Array.toList_inj.1 hprogram
  obtain rfl : pins = pins' := hpins
  obtain rfl : symbols = symbols' := hsymbols
  obtain rfl : cycleTime = cycleTime' := htime
  rfl

/-- An image that has been read comes back from the text it is written as exactly if no name in it
starts with a mark and every pin has the address of the last name that stands for it. -/
theorem read_writeImage_iff (h : (read text config).value = .ok image) :
    (read (writeImage image) config).value = .ok image ↔
      (∀ bank, ∀ e ∈ image.symbols.entries bank, ¬ sentinelMark <+: e.1.toList) ∧
        ∀ kind, ∀ index < image.pins.capacity kind,
          image.pins.get? kind index = image.symbols.pinAddress? ⟨kind, index⟩ := by
  constructor
  · intro hr
    have hreturns : Returns config image.program.instructions.toList image.symbols image.cycleTime
        image := ⟨hr, rfl, rfl, rfl⟩
    refine ⟨?_, ?_⟩
    · intro bank e he
      exact (writable_of_returns hreturns he).1.unmarked
    · intro kind index hi
      exact hreturns.get?_pins hi
  · rintro ⟨hunmarked, hpins⟩
    have hwritable : ∀ bank, ∀ e ∈ image.symbols.entries bank,
        Writable config.geometry bank e ∧ e.2 < UInt64.size := by
      intro bank e he
      have hheld := held_of_read h he
      exact ⟨⟨hheld.1, hunmarked bank e he⟩, hheld.2⟩
    obtain ⟨image', hreturns⟩ : ∃ image', Returns config image.program.instructions.toList
        image.symbols image.cycleTime image' :=
      ⟨_, returns_written (wellFormed_of_read h) hwritable⟩
    have hcapacity : ∀ kind, image'.pins.capacity kind = image.pins.capacity kind := by
      intro kind
      rw [capacity_of_read h, capacity_of_read hreturns.read_eq]
    have htables : image'.pins = image.pins := by
      apply PinMap.ext_get? hcapacity
      intro kind index hi
      rw [hreturns.get?_pins hi, hpins kind index (hcapacity kind ▸ hi)]
    have himage : image' = image :=
      image_eq hreturns.instructions_eq htables hreturns.symbols_eq hreturns.cycleTime_eq
    have hr := hreturns.read_eq
    rwa [himage] at hr

/-- Two spellings of one pin in a file count in the order of the file, and afterwards in the order of
the names. -/
theorem read_writeImage_iff_two_spellings : ∃ image,
    (read "$$LDcode\nff0000000000000000000000\n$$bits\nX1,5\nX01,3\n" {}).value = .ok image ∧
      ¬ (read (writeImage image) {}).value = .ok image := by
  have h : (read "$$LDcode\nff0000000000000000000000\n$$bits\nX1,5\nX01,3\n" {}).value =
      .ok ⟨⟨#[⟨255, 0, 0, 0, 0⟩]⟩, (PinMap.ofCounts {}).insert ⟨.input, 1⟩ 3,
        (({} : Symbols).insert .bit "X1" 5).insert .bit "X01" 3, 10000⟩ := by rfl
  refine ⟨_, h, ?_⟩
  rw [read_writeImage_iff h]
  rintro ⟨-, hpins⟩
  exact absurd (hpins .input 1 (by decide)) (by decide)

/-- A name behind a blank may start with a mark, and is gone when it is written without the blank. -/
theorem not_read_writeImage : ¬ ∀ (text : String) (config : Config) (image : Image),
    config.validate = .ok config → (read text config).value = .ok image →
      (read (writeImage image) config).value = .ok image := by
  intro hall
  have h : (read "$$LDcode\nff0000000000000000000000\n$$bits\n $$a,0\n" {}).value =
      .ok ⟨⟨#[⟨255, 0, 0, 0, 0⟩]⟩, .ofCounts {}, ({} : Symbols).insert .bit "$$a" 0, 10000⟩ := by rfl
  have hr := hall _ {} _ (by rfl) h
  have hlost : (read (writeImage ⟨⟨#[⟨255, 0, 0, 0, 0⟩]⟩, .ofCounts {},
      ({} : Symbols).insert .bit "$$a" 0, 10000⟩) {}).value =
      .ok ⟨⟨#[⟨255, 0, 0, 0, 0⟩]⟩, .ofCounts {}, {}, 10000⟩ := by rfl
  rw [hlost] at hr
  exact absurd (congrArg Image.symbols (Except.ok.inj hr)) (by decide)

end LadderMachine.Container
