import LadderMachine.Proofs.Container.LastLine

/-!
# Lines that can change places

Two statements behind the records can change places if they are about different things (`Apart`): then
they leave the same metadata, and one order is admitted if the other is. `Independent` tells the lines
that say such statements, in view of the bank that is selected above them. A text with two such lines
side by side is read as the same image if they are exchanged.
-/

namespace LadderMachine.Container

/-- Two statements that can change places while the given bank is selected. -/
inductive Apart (selected : Bank) : Statement → Statement → Prop
  | mappings {m n : Mapping} (hname : (m.bank selected, m.label) ≠ (n.bank selected, n.label))
      (hpin : ∀ pin, m.pin? = some pin → n.pin? ≠ some pin) :
    Apart selected (.mapping m) (.mapping n)
  | nothing (st : Statement) : Apart selected .nothing st
  | time {st : Statement} (given : Option UInt64) (h : ∀ other, st ≠ .time other) :
    Apart selected (.time given) st
  | pin {m : Mapping} {pin : Pin} (hpin : m.pin? = some pin) (bank : Bank) :
    Apart selected (.mapping m) (.bank bank)
  | symm {first second : Statement} (h : Apart selected second first) : Apart selected first second

section Statements

variable {g : Geometry} {s : Metadata} {m n : Mapping} {first second : Statement}
  {sts rest : List Statement} {selected : Bank}

theorem Metadata.enter_comm (hname : (m.bank s.bank, m.label) ≠ (n.bank s.bank, n.label))
    (hpin : ∀ pin, m.pin? = some pin → n.pin? ≠ some pin) :
    (s.enter m).enter n = (s.enter n).enter m := by
  have hsymbols : ((s.enter m).enter n).symbols = ((s.enter n).enter m).symbols := by
    apply Symbols.ext_get?
    intro bank name
    rw [get?_symbols_enter, get?_symbols_enter, get?_symbols_enter, get?_symbols_enter]
    apply ite_ite_comm
    rintro ⟨hnb, hnl⟩ ⟨hmb, hml⟩
    exact hname (Prod.ext (hmb.trans hnb.symm) (hml.trans hnl.symm))
  have hpins : ((s.enter m).enter n).pins = ((s.enter n).enter m).pins := by
    apply PinMap.ext_get?
    · intro kind
      simp only [capacity_pins_enter]
    · intro kind index hi
      simp only [capacity_pins_enter] at hi
      simp only [get?_pins_enter, capacity_pins_enter, hi]
      apply ite_ite_comm
      exact fun hn hm => hpin _ hm hn
  exact congrArg₂ (Metadata.mk s.bank s.cycleTime) hpins hsymbols

theorem Apart.take_comm (h : Apart s.bank first second) :
    (s.take first).take second = (s.take second).take first := by
  generalize hb : s.bank = selected at h
  induction h with
  | mappings hname hpin =>
    subst hb
    exact Metadata.enter_comm hname hpin
  | nothing st => rfl
  | @time st given h =>
    cases st with
    | time other => exact absurd rfl (h other)
    | nothing | bank | mapping => rfl
  | pin hpin bank =>
    simp only [Metadata.take, Metadata.enter, Mapping.bank_of_pin hpin]
  | symm _ ih => exact ih.symm

theorem Apart.admitted_iff (h : Apart selected first second) :
    Admitted g selected (first :: second :: rest) ↔
      Admitted g selected (second :: first :: rest) := by
  induction h with
  | mappings => exact and_left_comm
  | nothing => exact and_left_comm
  | time => exact and_left_comm
  | pin hpin bank =>
    simp only [Admitted, Statement.fits_mapping_iff, Statement.bankAfter, Mapping.bank_of_pin hpin]
    exact and_left_comm
  | symm _ ih => exact ih.symm

theorem admitted_append : Admitted g s.bank (sts ++ rest) ↔
    Admitted g s.bank sts ∧ Admitted g (sts.foldl Metadata.take s).bank rest := by
  induction sts generalizing s with
  | nil => exact (and_iff_right trivial).symm
  | cons st sts ih =>
    have hrest := ih (s := s.take st)
    rw [Metadata.bank_take] at hrest
    exact (and_congr_right fun _ => hrest).trans and_assoc.symm

end Statements

/-- Two lines behind the records that can change places while the given bank is selected. -/
inductive Independent (selected : Bank) : List Char → List Char → Prop
  /-- Mappings of different names that do not stand for the same pin. -/
  | mappings {first second : List Char} {m n : Mapping} (hf : Form first .data)
      (hs : Form second .data) (hm : Maps first m) (hn : Maps second n)
      (hname : (m.bank selected, m.label) ≠ (n.bank selected, n.label))
      (hpin : ∀ pin, m.pin? = some pin → n.pin? ≠ some pin) : Independent selected first second
  /-- A mapping and a blank line, a cycle line or an unknown sentinel. -/
  | quiet {first second : List Char} {k : Line} (hf : Form first .data) (hs : Form second k)
      (hdata : k ≠ .data) (hheading : ∀ bank, k ≠ .heading bank) : Independent selected first second
  /-- A mapping of a pin and a heading. -/
  | pin {first second : List Char} {m : Mapping} {pin : Pin} {bank : Bank} (hf : Form first .data)
      (hm : Maps first m) (hpin : m.pin? = some pin) (hs : Form second (.heading bank)) :
    Independent selected first second
  /-- Lines that map nothing, unless they are two cycle lines or two headings. -/
  | others {first second : List Char} {k l : Line} (hf : Form first k) (hs : Form second l)
      (hk : k ≠ .data) (hl : l ≠ .data) (hcycle : ∀ a b, ¬ (k = .cycle a ∧ l = .cycle b))
      (hheading : ∀ a b, ¬ (k = .heading a ∧ l = .heading b)) : Independent selected first second
  | symm {first second : List Char} (h : Independent selected second first) :
    Independent selected first second

section Lines

variable {line first second : List Char} {st x y : Statement} {selected : Bank}

theorem Says.exists_mapping (hs : Says line st) (hf : Form line .data) : ∃ m, st = .mapping m := by
  cases hs with
  | mapping _ _ => exact ⟨_, rfl⟩
  | blank h | sentinel h | heading h | cycle h => cases hf.unique h

theorem Independent.apart (h : Independent selected first second) (hx : Says first x)
    (hy : Says second y) : Apart selected x y := by
  induction h generalizing x y with
  | mappings hf hs hm hn hname hpin =>
    obtain rfl := hx.unique (.mapping hf hm)
    obtain rfl := hy.unique (.mapping hs hn)
    exact .mappings hname hpin
  | quiet hf hs hdata hheading =>
    obtain ⟨m, rfl⟩ := hx.exists_mapping hf
    cases hy with
    | blank | sentinel => exact .symm (.nothing _)
    | cycle => exact .symm (.time _ (by simp))
    | heading h => exact absurd (hs.unique h) (hheading _)
    | mapping h => exact absurd (hs.unique h) hdata
  | pin hf hm hpin hs =>
    obtain rfl := hx.unique (.mapping hf hm)
    obtain rfl := hy.unique (.heading hs)
    exact .pin hpin _
  | others hf hs hk hl hcycle hheading =>
    cases hx with
    | blank | sentinel => exact .nothing _
    | mapping h => exact absurd (hf.unique h) hk
    | cycle h =>
      refine .time _ ?_
      rintro other rfl
      cases hy with
      | cycle h' => exact hcycle _ _ ⟨hf.unique h, hs.unique h'⟩
    | heading h =>
      cases hy with
      | blank | sentinel => exact .symm (.nothing _)
      | cycle => exact .symm (.time _ (by simp))
      | mapping h' => exact absurd (hs.unique h') hl
      | heading h' => exact absurd ⟨hf.unique h, hs.unique h'⟩ (hheading _ _)
  | symm _ ih => exact .symm (ih hy hx)

end Lines

def RecordsEnd (ls : List (List Char)) : Prop :=
  ∃ last ∈ ls, ∃ selected time, Ends last selected time

section Contents

variable {config : Config} {above rest below : List (List Char)} {first second : List Char}
  {c : Contents} {before after : List Statement} {x y : Statement} {image : Image}

/-- Behind the end of the records every line says a statement of its own. -/
theorem tells_append_iff (hend : RecordsEnd above) : Tells (above ++ rest) c ↔
    ∃ before after, c.statements = before ++ after ∧ Tells above { c with statements := before } ∧
      List.Forall₂ Says rest after := by
  constructor
  · rintro ⟨records, last, metadata, hlines, hrecords, hends, hsays⟩
    rw [← List.cons_append] at hlines
    have hbehind : ¬ ∀ line ∈ above, line ∈ signature :: records := by
      obtain ⟨line, hline, selected, time, he⟩ := hend
      exact fun h => not_ends_of_mem_head hrecords (h line hline) he
    rcases List.append_eq_append_iff.1 hlines with ⟨others, hhead, -⟩ | ⟨tail, rfl, htail⟩
    · exact absurd (fun line hl => hhead ▸ List.mem_append_left _ hl) hbehind
    · cases tail with
      | nil => exact absurd (fun line hl => by rwa [List.append_nil] at hl) hbehind
      | cons l mid =>
        obtain ⟨rfl, rfl⟩ := List.cons.inj htail
        have hmid := (List.forall₂_take_append _ _ _ hsays.flip).flip
        have hrest := (List.forall₂_drop_append _ _ _ hsays.flip).flip
        exact ⟨_, _, (List.take_append_drop mid.length c.statements).symm,
          ⟨records, last, mid, rfl, hrecords, hends, hmid⟩, hrest⟩
  · rintro ⟨before, after, hst, ⟨records, last, mid, rfl, hrecords, hends, hmid⟩, hrest⟩
    refine ⟨records, last, mid ++ rest, by simp, hrecords, hends, ?_⟩
    rw [hst]
    exact List.rel_append hmid hrest

theorem Contents.bank_metadata (config : Config) (ht : Tells above c) :
    (c.metadata config).bank = bankAbove above := by
  obtain ⟨instructions, bank, time, sts⟩ := c
  obtain ⟨records, last, metadata, rfl, hrecords, hends, hsays⟩ := ht
  have hstart : (Contents.start config ⟨instructions, bank, time, sts⟩).Reflects
      (signature :: records ++ [last]) := Contents.reflects_start hrecords hends
  have hend : RecordsEnd (signature :: records ++ [last]) := ⟨last, by simp, bank, time, hends⟩
  rw [← List.cons_append, List.append_cons]
  exact (hstart.foldl_take hsays hend).bank_eq

theorem Contents.Sound.swap
    (h : Contents.Sound config { c with statements := before ++ x :: y :: after })
    (ha : Apart (Contents.metadata config { c with statements := before }).bank x y) :
    Contents.Sound config { c with statements := before ++ y :: x :: after } where
  admitted := by
    have hadmitted := (admitted_append (s := c.start config)).1 h.admitted
    exact (admitted_append (s := c.start config)).2 ⟨hadmitted.1, ha.admitted_iff.1 hadmitted.2⟩
  wellFormed := h.wellFormed

theorem Contents.image_swap
    (ha : Apart (Contents.metadata config { c with statements := before }).bank x y) :
    Contents.image config { c with statements := before ++ y :: x :: after } =
      Contents.image config { c with statements := before ++ x :: y :: after } := by
  have hmetadata : Contents.metadata config { c with statements := before ++ y :: x :: after } =
      Contents.metadata config { c with statements := before ++ x :: y :: after } := by
    rw [Contents.metadata, Contents.metadata, List.foldl_append, List.foldl_append]
    exact congrArg (after.foldl Metadata.take) ha.take_comm.symm
  rw [Contents.image, Contents.image, hmetadata]

theorem readLines_swap (hend : RecordsEnd above) (hi : Independent (bankAbove above) first second)
    (h : (readLines config (above ++ first :: second :: below)).value = .ok image) :
    (readLines config (above ++ second :: first :: below)).value = .ok image := by
  obtain ⟨⟨instructions, bank, time, sts⟩, ht, hs, rfl⟩ := readLines_eq_ok_iff.1 h
  obtain ⟨before, after, rfl, habove, hrest⟩ := (tells_append_iff hend).1 ht
  cases hrest with
  | @cons _ x _ _ hx hrest =>
    cases hrest with
    | @cons _ y _ after hy hbelow =>
      have hapart := hi.apart hx hy
      rw [← Contents.bank_metadata config habove] at hapart
      have ht' : Tells (above ++ second :: first :: below)
          ⟨instructions, bank, time, before ++ y :: x :: after⟩ :=
        (tells_append_iff hend).2 ⟨before, _, rfl, habove, .cons hy (.cons hx hbelow)⟩
      exact readLines_eq_ok_iff.2 ⟨_, ht', hs.swap hapart, (Contents.image_swap hapart).symm⟩

theorem Contents.image_concat_nothing (config : Config) (c : Contents) :
    Contents.image config { c with statements := c.statements ++ [.nothing] } = c.image config := by
  rw [Contents.image, Contents.image, Contents.metadata, List.foldl_append]
  rfl

theorem Contents.sound_concat_nothing_iff (c : Contents) :
    Contents.Sound config { c with statements := c.statements ++ [.nothing] } ↔ c.Sound config := by
  have hadmitted : Admitted config.geometry c.bank (c.statements ++ [.nothing]) ↔
      Admitted config.geometry c.bank c.statements :=
    (admitted_append (s := c.start config)).trans (and_iff_left ⟨trivial, trivial⟩)
  exact ⟨fun h => ⟨hadmitted.1 h.admitted, h.wellFormed⟩,
    fun h => ⟨hadmitted.2 h.admitted, h.wellFormed⟩⟩

theorem readLines_concat_blank (hend : RecordsEnd above) :
    (readLines config (above ++ [[]])).value = .ok image ↔
      (readLines config above).value = .ok image := by
  have hblank : Says [] .nothing := .blank (.blank Text.trim_nil)
  rw [readLines_eq_ok_iff, readLines_eq_ok_iff]
  constructor
  · rintro ⟨⟨instructions, bank, time, sts⟩, ht, hs, rfl⟩
    obtain ⟨before, after, rfl, habove, hrest⟩ := (tells_append_iff hend).1 ht
    cases hrest with
    | cons hst hnil =>
      cases hnil
      obtain rfl := hst.unique hblank
      exact ⟨_, habove, (Contents.sound_concat_nothing_iff ⟨instructions, bank, time, before⟩).1 hs,
        Contents.image_concat_nothing config ⟨instructions, bank, time, before⟩⟩
  · rintro ⟨c, ht, hs, rfl⟩
    have ht' : Tells (above ++ [[]]) { c with statements := c.statements ++ [.nothing] } :=
      (tells_append_iff hend).2 ⟨_, _, rfl, ht, .cons hblank .nil⟩
    exact ⟨_, ht', (Contents.sound_concat_nothing_iff c).2 hs,
      (Contents.image_concat_nothing config c).symm⟩

end Contents

/-- A text with two lines side by side. Above them it ends in a line feed, and what follows the second
one starts with a line feed unless there is nothing. -/
structure Adjacent where
  above : List Char
  first : List Char
  second : List Char
  below : List Char
  above_ends : above.getLast? = some '\n'
  first_line : '\n' ∉ first
  second_line : '\n' ∉ second
  below_starts : below = [] ∨ below.head? = some '\n'

namespace Adjacent

variable {a : Adjacent} {config : Config} {image : Image} {ls : List (List Char)}
  {line below : List Char}

def text (a : Adjacent) : String :=
  String.ofList (a.above ++ a.first ++ '\n' :: a.second ++ a.below)

def swap (a : Adjacent) : Adjacent where
  above := a.above
  first := a.second
  second := a.first
  below := a.below
  above_ends := a.above_ends
  first_line := a.second_line
  second_line := a.first_line
  below_starts := a.below_starts

theorem lines_text (hr : '\r' ∉ a.first) : Text.lines a.text.toList =
    Text.lines a.above ++ a.first :: Text.lines (a.second ++ a.below) := by
  obtain ⟨upper, hupper⟩ := List.getLast?_eq_some_iff.1 a.above_ends
  have htext : a.text.toList = upper ++ '\n' :: (a.first ++ '\n' :: (a.second ++ a.below)) := by
    simp [text, hupper]
  rw [htext, hupper, Text.lines_feed_append, Text.lines_append_feed _ a.first_line,
    Text.dropReturn_of_not_mem hr]

/-- The last line may be empty, and then it is no line of the text. -/
theorem readLines_lines_append (hend : RecordsEnd ls) (hn : '\n' ∉ line) (hr : '\r' ∉ line)
    (hbelow : below = [] ∨ below.head? = some '\n') :
    (readLines config (ls ++ Text.lines (line ++ below))).value = .ok image ↔
      (readLines config (ls ++ line :: Text.lines below.tail)).value = .ok image := by
  rcases hbelow with rfl | hbelow
  · rw [List.append_nil]
    by_cases hne : line = []
    · rw [hne, Text.lines_nil, List.append_nil]
      exact (readLines_concat_blank hend).symm
    · rw [Text.lines_of_not_mem hn hne]
      rfl
  · obtain ⟨rest, rfl⟩ := List.head?_eq_some_iff.1 hbelow
    rw [Text.lines_append_feed rest hn, Text.dropReturn_of_not_mem hr]
    rfl

/-- If two independent lines behind the records change places, the same image is read. -/
theorem read_swap (hr : '\r' ∉ a.text.toList) (hend : RecordsEnd (Text.lines a.above))
    (hi : Independent (bankAbove (Text.lines a.above)) a.first a.second)
    (h : (read a.text config).value = .ok image) :
    (read a.swap.text config).value = .ok image := by
  have hfirst : '\r' ∉ a.first := fun hm => hr (by simp [text, hm])
  have hsecond : '\r' ∉ a.second := fun hm => hr (by simp [text, hm])
  have hends : ∀ line, RecordsEnd (Text.lines a.above ++ [line]) := by
    obtain ⟨last, hlast, he⟩ := hend
    exact fun line => ⟨last, List.mem_append_left _ hlast, he⟩
  rw [read, lines_text hfirst, List.append_cons,
    readLines_lines_append (hends _) a.second_line hsecond a.below_starts, ← List.append_cons] at h
  have hswap := readLines_swap hend hi h
  rw [read, lines_text (a := a.swap) hsecond, List.append_cons]
  refine (readLines_lines_append (hends _) a.first_line hfirst a.below_starts).2 ?_
  rwa [← List.append_cons]

/-- Two names under one heading, the second one on a last line without an end. -/
theorem read_swap_two_names : ∃ image,
    (read "$$LDcode\nff0000000000000000000000\n$$int16s\nX1,5\na,7" {}).value = .ok image ∧
      (read "$$LDcode\nff0000000000000000000000\n$$int16s\na,7\nX1,5" {}).value = .ok image ∧
      image.pins.get? .input 1 = some 5 ∧ image.symbols.get? .int "a" = some 7 := by
  have h : (read "$$LDcode\nff0000000000000000000000\n$$int16s\nX1,5\na,7" {}).value =
      .ok ⟨⟨#[⟨255, 0, 0, 0, 0⟩]⟩, (PinMap.ofCounts {}).insert ⟨.input, 1⟩ 5,
        (({} : Symbols).insert .bit "X1" 5).insert .int "a" 7, 10000⟩ := by
    rfl
  have hend : RecordsEnd
      (Text.lines "$$LDcode\nff0000000000000000000000\n$$int16s\n".toList) :=
    ⟨heading .int, by decide, .int, none, .heading (.heading .int)⟩
  have hpin : (Mapping.mk ['a'] 7).pin? = none := by decide
  have hi : Independent
      (bankAbove (Text.lines "$$LDcode\nff0000000000000000000000\n$$int16s\n".toList))
      "X1,5".toList "a,7".toList :=
    @Independent.mappings _ _ _ ⟨['X', '1'], 5⟩ ⟨['a'], 7⟩ (classify_eq_iff.1 (by decide))
      (classify_eq_iff.1 (by decide)) (ofLine?_eq_some_iff.1 (by decide))
      (ofLine?_eq_some_iff.1 (by decide)) (by decide) (by simp [hpin])
  refine ⟨_, h, ?_, by decide, by decide⟩
  exact read_swap (a := ⟨"$$LDcode\nff0000000000000000000000\n$$int16s\n".toList, "X1,5".toList,
    "a,7".toList, [], by decide, by decide, by decide, .inl rfl⟩) (by decide) hend hi h

end Adjacent

end LadderMachine.Container
