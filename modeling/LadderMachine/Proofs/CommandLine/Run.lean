import LadderMachine.Proofs.CommandLine.Events
import LadderMachine.Proofs.Machine.TwoRuns
import LadderMachine.Proofs.Memory.Dump
import LadderMachine.Proofs.Simulator.Consistency

/-!
# What a run shows

`memoryAfter` runs a program over memory and nothing else: before each cycle the oscillating bit is set
to its level for that cycle. A session `Follows` it from cycle to cycle, so what it prints about
watched variables are their values in these memories; that a name or the oscillating bit might have
no cell never comes up.
-/

namespace LadderMachine

/-- The oscillating bit, if there is one, is on in odd cycles and off in even ones. -/
def Memory.driven (m : Memory) (oscillator : Option Nat) (cycle : Nat) : Memory :=
  match oscillator with
  | none => m
  | some address => { m with bits := m.bits.setIfInBounds address (decide (cycle % 2 = 1)) }

def Memory.scan (budget : Nat) (config : Config) (program : Program) (m : Memory) : Option Memory :=
  ((Machine.ofConfig config program m).cycle budget).map (·.machine.memory)

theorem not_decide_odd (k : Nat) : (!decide (k % 2 = 1)) = decide ((k + 1) % 2 = 1) := by
  rw [← decide_not, decide_eq_decide]
  omega

/-- A console whose bit is a cell drives it without a fault, and to the level of the next cycle. -/
theorem Console.exists_drive_eq {c : Console} {m : Memory} {k : Nat}
    (hlt : ∀ a, c.oscillator = some a → a < m.capacity .bit)
    (hlevel : ∀ a, c.oscillator = some a → c.level = decide (k % 2 = 1)) :
    ∃ c', c.drive m = ⟨(c', m.driven c.oscillator (k + 1)), []⟩ ∧ c'.oscillator = c.oscillator ∧
      ∀ a, c.oscillator = some a → c'.level = decide ((k + 1) % 2 = 1) := by
  cases ho : c.oscillator with
  | none => exact ⟨c, by simp only [drive, ho, Memory.driven], ho, by simp⟩
  | some a =>
    have hnext : (!c.level) = decide ((k + 1) % 2 = 1) := by
      rw [hlevel a ho, not_decide_odd]
    have hset : m.setBit? a (!c.level) = some (m.driven (some a) (k + 1)) := by
      rw [Memory.setBit?, if_pos (show a < m.bits.size from hlt a ho), hnext, Memory.driven]
    refine ⟨{ c with level := !c.level }, ?_, ho, fun _ _ => hnext⟩
    simp only [drive, ho, Memory.writeBit, hset]

theorem Simulator.tick_of_cycle {σ : Type} {s : Simulator σ} {budget : Nat} {done : CycleEnd}
    (h : s.fed.cycle budget = some done) : s.tick budget = some
      ⟨(done.outcome, s.settled done), (s.device.readInputs s.state s.pins s.memory).events ++
        done.events ++ (s.device.writeOutputs
          (s.device.readInputs s.state s.pins s.memory).value.1 s.pins done.machine.memory).events⟩ := by
  rw [tick, ← fed, h]
  rfl

namespace CommandLine

namespace Output

def texts (outputs : List Output) : List String :=
  outputs.filterMap fun
    | text content => some content
    | event _ => none

def events (outputs : List Output) : List Event :=
  outputs.filterMap fun
    | text _ => none
    | event e => some e

variable (outputs more : List Output) (reported : List Event)

@[simp] theorem texts_append : texts (outputs ++ more) = texts outputs ++ texts more :=
  List.filterMap_append

@[simp] theorem events_append : events (outputs ++ more) = events outputs ++ events more :=
  List.filterMap_append

@[simp] theorem texts_ofEvents : texts (ofEvents reported) = [] := by
  simp [texts, ofEvents, List.filterMap_map]

@[simp] theorem events_ofEvents : events (ofEvents reported) = reported := by
  simp [events, ofEvents, List.filterMap_map]

end Output

/-- Memory after so many cycles of a program that starts on zero memory, each with the oscillating bit
set before it. -/
def memoryAfter (budget : Nat) (config : Config) (program : Program) (oscillator : Option Nat) :
    Nat → Option Memory
  | 0 => some (.ofGeometry config.geometry)
  | k + 1 => (memoryAfter budget config program oscillator k).bind fun m =>
    (m.driven oscillator (k + 1)).scan budget config program

/-- The value of a watched name: its integer in decimal, or else the state of its bit. -/
inductive Shows (symbols : Symbols) (m : Memory) (name : String) : String → Prop
  | integer {address : Nat} {v : Int32} (ha : symbols.get? .int name = some address)
      (hv : m.integer? address = some v) : Shows symbols m name (integerText v.toInt)
  | bit {address : Nat} {b : Bool} (hn : symbols.get? .int name = none)
      (ha : symbols.get? .bit name = some address) (hb : m.bit? address = some b) :
    Shows symbols m name (if b then "1" else "0")

/-- The line shows the number of the cycle and each of the names with its value in memory. -/
def WatchLine (symbols : Symbols) (names : List String) (cycle : Nat) (m : Memory) (line : String) :
    Prop :=
  ∃ value : String → String, (∀ name ∈ names, Shows symbols m name (value name)) ∧
    line = String.ofList ((Nat.toDigits 10 cycle).leftpad 6 ' ') ++ ": " ++
      "  ".intercalate (names.map fun name => name ++ "=" ++ value name) ++ "\n"

/-- One line for each cycle from the first one on, in the memory after that cycle; no lines if no
names are watched. -/
def WatchLines (symbols : Symbols) (names : List String) (memory : Nat → Option Memory)
    (first count : Nat) (lines : List String) : Prop :=
  if names = [] then lines = []
  else List.Forall₂ (fun cycle line => ∃ m, memory cycle = some m ∧
    WatchLine symbols names cycle m line) (List.range' first count) lines

namespace WatchLines

variable {symbols : Symbols} {names : List String} {memory : Nat → Option Memory}
  {first count more : Nat} {lines later : List String}

theorem nil : WatchLines symbols names memory first 0 [] := by
  unfold WatchLines
  split
  · rfl
  · exact .nil

theorem append (h : WatchLines symbols names memory first count lines)
    (h' : WatchLines symbols names memory (first + count) more later) :
    WatchLines symbols names memory first (count + more) (lines ++ later) := by
  unfold WatchLines at h h' ⊢
  split
  · next hn =>
    rw [if_pos hn] at h h'
    rw [h, h', List.append_nil]
  · next hn =>
    rw [if_neg hn] at h h'
    rw [← List.range'_append_1]
    exact List.rel_append h h'

end WatchLines

theorem exists_memoryAfter_of_le {budget : Nat} {config : Config} {program : Program}
    {oscillator : Option Nat} {j k : Nat} {last : Memory} (hjk : j ≤ k)
    (h : memoryAfter budget config program oscillator k = some last) :
    ∃ m, memoryAfter budget config program oscillator j = some m := by
  induction hjk generalizing last with
  | refl => exact ⟨last, h⟩
  | step _ ih =>
    obtain ⟨m, hm, -⟩ := Option.bind_eq_some_iff.1 h
    exact ih hm

namespace Session

variable {budget k n : Nat} {config : Config} {image : Image} {names : List String}
  {oscillator : Option Nat} {m m' last : Memory} {s : Session}

/-- The session has run so many cycles and has the given memory, and its console is about to drive
the bit to the level of the next cycle. -/
structure Follows (config : Config) (image : Image) (names : List String) (oscillator : Option Nat)
    (k : Nat) (m : Memory) (s : Session) : Prop where
  count_eq : s.count = k
  watches_eq : s.watches = names
  image_eq : s.simulator.image = image
  memory_eq : s.simulator.memory = m
  stepLimit_eq : s.simulator.machine.stepLimit = config.stepLimit
  device_eq : s.simulator.device = Console.device
  oscillator_eq : s.simulator.state.oscillator = oscillator
  level_eq : ∀ a, oscillator = some a → s.simulator.state.level = decide (k % 2 = 1)
  consistent : s.simulator.Consistent config

namespace Follows

variable (h : s.Follows config image names oscillator k m)
include h

theorem symbols_eq : s.simulator.symbols = image.symbols := congrArg Image.symbols h.image_eq

theorem program_eq : s.simulator.machine.program = image.program :=
  congrArg Image.program h.image_eq

theorem exists_readInputs_eq
    (hlt : ∀ a, oscillator = some a → a < config.geometry.capacity .bit) :
    ∃ c, s.simulator.device.readInputs s.simulator.state s.simulator.pins s.simulator.memory =
        ⟨(c, m.driven oscillator (k + 1)), []⟩ ∧ c.oscillator = oscillator ∧
      ∀ a, oscillator = some a → c.level = decide ((k + 1) % 2 = 1) := by
  rw [h.device_eq, h.memory_eq, ← h.oscillator_eq]
  refine Console.exists_drive_eq (fun a ha => ?_) fun a ha => ?_
  · rw [← h.memory_eq, h.consistent.capacity_eq .bit]
    exact hlt a (h.oscillator_eq.symm.trans ha)
  · exact h.level_eq a (h.oscillator_eq.symm.trans ha)

theorem shows_watchedValue {name : String}
    (hname : ∃ bank address, image.symbols.get? bank name = some address) :
    Shows image.symbols m name (watchedValue s.simulator name) := by
  have hread {bank : Bank} {address : Nat} (ha : image.symbols.get? bank name = some address) :
      s.simulator.symbols.get? bank name = some address ∧
        address < s.simulator.memory.capacity bank := by
    rw [← h.symbols_eq] at ha
    exact ⟨ha, h.consistent.lt_capacity ha⟩
  rw [← h.memory_eq, watchedValue, Simulator.readInteger_eq, Simulator.readBit_eq]
  cases hi : image.symbols.get? .int name with
  | some address =>
    obtain ⟨ha, hlt⟩ := hread hi
    have hv : s.simulator.memory.integer? address = some _ := Array.getElem?_eq_getElem hlt
    rw [Simulator.readCell_of_some ha hv]
    exact .integer hi hv
  | none =>
    obtain ⟨address, hb⟩ : ∃ address, image.symbols.get? .bit name = some address := by
      obtain ⟨bank, address, hb⟩ := hname
      cases bank with
      | bit => exact ⟨address, hb⟩
      | int => exact absurd (hi.symm.trans hb) (by simp)
    obtain ⟨ha, hlt⟩ := hread hb
    have hv : s.simulator.memory.bit? address = some _ := Array.getElem?_eq_getElem hlt
    rw [Simulator.readCell_of_none (h.symbols_eq ▸ hi), Simulator.readCell_of_some ha hv]
    exact .bit hi hb hv

theorem watchLine (hnames : ∀ name ∈ names, ∃ bank address,
      image.symbols.get? bank name = some address) :
    WatchLine image.symbols names k m (Session.watchLine s.simulator names k ++ "\n") :=
  ⟨watchedValue s.simulator, fun name hn => h.shows_watchedValue (hnames name hn), rfl⟩

variable (hlt : ∀ a, oscillator = some a → a < config.geometry.capacity .bit)
include hlt

/-- The tick of the session ends if the cycle over memory does, and leaves the same memory. -/
theorem exists_tick (hm : (m.driven oscillator (k + 1)).scan budget config image.program = some m') :
    ∃ r, s.simulator.tick budget = some r ∧ Calm r.events ∧
      Follows config image names oscillator (k + 1) m'
        { s with simulator := r.value.2, count := s.count + 1 } := by
  obtain ⟨c, hin, hosc, hlevel⟩ := h.exists_readInputs_eq hlt
  obtain ⟨d, hd, rfl⟩ := Option.map_eq_some_iff.1 hm
  have halike : (Machine.ofConfig config image.program (m.driven oscillator (k + 1))).Alike Eq
      s.simulator.fed := by
    refine ⟨h.program_eq, h.stepLimit_eq, ?_⟩
    rw [Simulator.fed, hin]
    rfl
  obtain ⟨e, he, -, hend, -⟩ := halike.exists_cycle (Program.respects_eq _) hd
  have htick := Simulator.tick_of_cycle he
  rw [hin, h.device_eq] at htick
  refine ⟨_, htick, ?_, ?_⟩
  · exact calm_append.2
      ⟨calm_append.2 ⟨calm_nil, Machine.calm_of_cycle he⟩, Console.calm_outputs _ _⟩
  · refine ⟨congrArg (· + 1) h.count_eq, h.watches_eq, ?_, hend.memory.symm, ?_, h.device_eq, ?_, ?_,
      (h.consistent.tick htick).1⟩
    · exact (Simulator.image_settled he).trans h.image_eq
    · exact (Machine.stepLimit_eq_of_cycle he).trans h.stepLimit_eq
    · rw [Simulator.settled, hin, h.device_eq]
      exact hosc
    · rw [Simulator.settled, hin, h.device_eq]
      exact hlevel

variable (hnames : ∀ name ∈ names, ∃ bank address, image.symbols.get? bank name = some address)
include hnames

theorem exists_cycle
    (hk : memoryAfter budget config image.program oscillator k = some m)
    (hm : memoryAfter budget config image.program oscillator (k + 1) = some m') :
    ∃ outputs s', s.cycle budget = some (outputs, s') ∧
      s'.Follows config image names oscillator (k + 1) m' ∧ Calm (Output.events outputs) ∧
      WatchLines image.symbols names (memoryAfter budget config image.program oscillator) (k + 1) 1
        (Output.texts outputs) := by
  have hscan : (m.driven oscillator (k + 1)).scan budget config image.program = some m' := by
    rwa [memoryAfter, hk] at hm
  obtain ⟨r, htick, hcalm, hfollows⟩ := h.exists_tick hlt hscan
  have hreported := calm_append.2 ⟨hcalm, calm_outcomeEvents s.count r.value.1⟩
  have hline := hfollows.watchLine hnames
  rw [Session.cycle, htick]
  refine ⟨_, _, rfl, hfollows, ?_, ?_⟩
  · rw [Output.events_append, Output.events_ofEvents]
    refine calm_append.2 ⟨hreported, ?_⟩
    split <;> exact calm_nil
  · rw [Output.texts_append, Output.texts_ofEvents, List.nil_append, h.watches_eq, h.count_eq,
      WatchLines]
    split
    · rfl
    · exact .cons ⟨m', hm, hline⟩ .nil

theorem exists_cycles
    (hk : memoryAfter budget config image.program oscillator k = some m)
    (hlast : memoryAfter budget config image.program oscillator (k + n) = some last)
    (shown : Array Output) :
    ∃ outputs s', s.cycles budget n shown = some (shown.toList ++ outputs, s') ∧
      s'.Follows config image names oscillator (k + n) last ∧ Calm (Output.events outputs) ∧
      WatchLines image.symbols names (memoryAfter budget config image.program oscillator) (k + 1) n
        (Output.texts outputs) := by
  induction n generalizing k m s shown with
  | zero =>
    obtain rfl : m = last := Option.some.inj (hk.symm.trans hlast)
    exact ⟨[], s, by simp [cycles], h, calm_nil, .nil⟩
  | succ n ih =>
    obtain ⟨m', hm'⟩ := exists_memoryAfter_of_le (j := k + 1) (by omega) hlast
    obtain ⟨outputs, t, hcycle, ht, hcalm, hlines⟩ := h.exists_cycle hlt hnames hk hm'
    have hsum : k + 1 + n = k + (n + 1) := by omega
    obtain ⟨later, s', hrest, hs', hcalm', hlines'⟩ :=
      ih ht hm' (hsum ▸ hlast) (shown ++ outputs)
    refine ⟨outputs ++ later, s', ?_, hsum ▸ hs', ?_, ?_⟩
    · simp only [cycles, hcycle, hrest, Array.toList_appendList, List.append_assoc]
    · rw [Output.events_append]
      exact calm_append.2 ⟨hcalm, hcalm'⟩
    · rw [Output.texts_append, Nat.add_comm n 1]
      exact hlines.append hlines'

end Follows

section Open

variable {options : RunOptions} {r : Logged (Except LoadError Image)}

theorem oscillator?_eq (symbols : Symbols)
    (h : ∀ name ∈ options.oscillator, ∃ address, symbols.get? .bit name = some address) :
    oscillator? symbols options.oscillator = .ok (options.oscillator.bind (symbols.get? .bit)) := by
  cases ho : options.oscillator with
  | none => rfl
  | some name =>
    obtain ⟨address, ha⟩ := h name ho
    simp only [oscillator?, ha, Option.bind_some]

theorem unknownWatch?_eq_none {symbols : Symbols}
    (h : ∀ name ∈ names, ∃ bank address, symbols.get? bank name = some address) :
    unknownWatch? symbols names = none := by
  rw [unknownWatch?, Option.map_eq_none_iff, List.find?_eq_none]
  intro name hn
  obtain ⟨bank, address, ha⟩ := h name hn
  cases bank <;> simp [ha]

variable (hfits : image.Fits config.geometry)
  (hwatches : ∀ name ∈ options.watches, ∃ bank address, image.symbols.get? bank name = some address)
  (hosc : ∀ name ∈ options.oscillator, ∃ address, image.symbols.get? .bit name = some address)
include hfits hwatches hosc

theorem exists_start : ∃ session, start options config image = .ok session ∧
    session.Follows config image options.watches
      (options.oscillator.bind (image.symbols.get? .bit)) 0 (.ofGeometry config.geometry) := by
  refine ⟨⟨.ofImage image config Console.device
    { oscillator := options.oscillator.bind (image.symbols.get? .bit) }, options.watches, 0⟩, ?_, ?_⟩
  · simp only [start, oscillator?_eq image.symbols hosc, unknownWatch?_eq_none hwatches]
  · exact ⟨rfl, rfl, rfl, rfl, rfl, rfl, rfl, fun _ _ => rfl,
      Simulator.consistent_ofImage hfits Console.writesAsHost_device _⟩

theorem exists_open (hr : r.value = .ok image) (hcalm : Calm r.events) :
    ∃ session, (openOn options config r).result = .ok session ∧
      session.Follows config image options.watches
        (options.oscillator.bind (image.symbols.get? .bit)) 0 (.ofGeometry config.geometry) ∧
      Output.texts (openOn options config r).output = banner options config image ::
        (if options.listing then [image.program.listing.text] else []) ∧
      Calm (Output.events (openOn options config r).output) := by
  obtain ⟨session, hstart, hfollows⟩ := exists_start hfits hwatches hosc
  have hopen : openOn options config r = ⟨Output.ofEvents r.events ++
      [.text (banner options config image)] ++
        (if options.listing then listingOutput image.program.listing else []), .ok session⟩ := by
    simp only [openOn, hr, hstart]
  rw [hopen]
  refine ⟨session, rfl, hfollows, ?_, ?_⟩
  · rw [Output.texts_append, Output.texts_append, Output.texts_ofEvents]
    split
    · rw [listingOutput, Output.texts_append, Output.texts_ofEvents]
      rfl
    · rfl
  · rw [Output.events_append, Output.events_append, Output.events_ofEvents]
    refine calm_append.2 ⟨calm_append.2 ⟨hcalm, calm_nil⟩, ?_⟩
    split
    · rw [listingOutput, Output.events_append, Output.events_ofEvents]
      exact calm_append.2 ⟨Listing.calm_events _, calm_nil⟩
    · exact calm_nil

end Open

theorem texts_closing (options : RunOptions) (s : Session) : Output.texts (s.closing options) =
    (if options.dump then [s.simulator.memory.dump] else []) ++
      if options.statistics then [s.simulator.machine.statistics.report] else [] := by
  rw [closing, Output.texts_append]
  congr 1 <;> split <;> rfl

theorem events_closing (options : RunOptions) (s : Session) :
    Output.events (s.closing options) = [] := by
  rw [closing, Output.events_append]
  split <;> split <;> rfl

end Session

open Session in
/-- A run for a number of cycles prints the banner, the listing if it is asked for, one line for each
cycle with the watched variables as they are in the memory after that cycle, and at the end, as far as
they are asked for, the last memory, with a line for each cell that is not at rest, and the statistics.
Nothing is reported about the oscillator. -/
theorem transcript_shows_memories {budget n : Nat} {i : Invocation} {files : FileReader}
    {config : Config} {options : RunOptions} {image : Image} {last : Memory}
    (hconfig : readConfig files i.config = .ok config) (hcommand : i.command = .run options)
    (hcycles : options.cycles = some n)
    (hread : (readContainer files options.file config).value = .ok image)
    (hwatches : ∀ name ∈ options.watches, ∃ bank address,
      image.symbols.get? bank name = some address)
    (hosc : ∀ name ∈ options.oscillator, ∃ address, image.symbols.get? .bit name = some address)
    (hlast : memoryAfter budget config image.program
      (options.oscillator.bind (image.symbols.get? .bit)) n = some last) :
    ∃ t lines, ∃ statistics : Statistics, i.transcript budget files = some t ∧
      t.code = 0 ∧ t.errors = "" ∧
      Output.texts t.output = banner options config image ::
        (if options.listing then [image.program.listing.text] else []) ++ lines ++
        (if options.dump then [last.dump] else []) ++
        (if options.statistics then [statistics.report] else []) ∧
      (∃ es, last.Lists es ∧ Text.lines last.dump.toList = es.map fun e => e.line.toList) ∧
      WatchLines image.symbols options.watches (memoryAfter budget config image.program
        (options.oscillator.bind (image.symbols.get? .bit))) 1 n lines ∧
      ∀ reason, Event.oscillatorFault reason ∉ Output.events t.output := by
  have hsource : ((Container.Source.file options.file (files options.file)).read config).value =
      .ok image := hread
  have hfits : image.Fits config.geometry := Container.Source.fits hsource
  have hlt : ∀ a, options.oscillator.bind (image.symbols.get? .bit) = some a →
      a < config.geometry.capacity .bit := by
    intro a ha
    obtain ⟨name, -, hname⟩ := Option.bind_eq_some_iff.1 ha
    exact hfits.symbols hname
  obtain ⟨session, hresult, hfollows, htexts, hcalm⟩ :=
    exists_open hfits hwatches hosc hread (Container.calm_readContents _ _ _)
  obtain ⟨shown, s, hshown, hs, hcalm', hlines⟩ := hfollows.exists_cycles hlt hwatches rfl
    ((Nat.zero_add n).symm ▸ hlast) #[]
  have htranscript : i.transcript budget files = some
      { output := (openOn options config (readContainer files options.file config)).output ++
          shown ++ s.closing options } := by
    simp only [Invocation.transcript, hconfig, hcommand, hcycles, runCycles, hresult, hshown,
      List.nil_append]
  refine ⟨_, Output.texts shown, s.simulator.machine.statistics, htranscript, rfl, rfl, ?_, ?_, ?_,
    ?_⟩
  · rw [Output.texts_append, Output.texts_append, htexts, texts_closing, hs.memory_eq,
      List.append_assoc _ _ (if options.statistics then _ else _)]
  · exact ⟨last.entries, last.lists_entries, last.lines_dump⟩
  · exact hlines
  · rw [Output.events_append, Output.events_append, events_closing, List.append_nil]
    exact calm_append.2 ⟨hcalm, hcalm'⟩

/-- A program that copies the oscillating bit to a lamp, clears it and counts. -/
theorem transcript_shows_memories_oscillating :
    let files : FileReader := fun _ => .ok
      ("$$LDcode\n030001000000000000000000\n020000000000000000000000\n" ++
        "060000000000000000000000\nff0000000000000000000000\n" ++
        "$$bits\nlamp,1\nosc,0\n$$int16s\ncount,0\n").toUTF8
    let program : Program := ⟨#[.copyBit 1 0, .clearBit 0, .increment 0, .endOfProgram]⟩
    let symbols := ((({} : Symbols).insert .bit "lamp" 1).insert .bit "osc" 0).insert .int "count" 0
    let options : RunOptions :=
      { file := "blink.int", cycles := some 2, watches := ["count", "lamp"]
        oscillator := some "osc", dump := true }
    let i : Invocation := { command := .run options }
    ∃ t, i.transcript 9 files = some t ∧
      (∃ last es, memoryAfter 9 {} program (some 0) 2 = some last ∧ last.Lists es ∧
        Text.lines "int16s[000] = 2\n".toList = es.map fun e => e.line.toList) ∧
      WatchLines symbols ["count", "lamp"] (memoryAfter 9 {} program (some 0)) 1 2
        ["     1: count=1  lamp=1\n", "     2: count=2  lamp=0\n"] ∧
      ∀ reason, Event.oscillatorFault reason ∉ Output.events t.output := by
  intro files program symbols options i
  have hread : (readContainer files options.file {}).value =
      .ok ⟨program, .ofCounts {}, symbols, 10000⟩ := by decide +kernel
  have hlast : (memoryAfter 9 {} program (some 0) 2).isSome := by decide +kernel
  have hprinted : (i.transcript 9 files).map (Output.texts ·.output) =
      some ["[*] Loaded blink.int\n    Instructions: 4  Cycle: 10000 us  Bits: 128  Integers: 128\n",
        "     1: count=1  lamp=1\n", "     2: count=2  lamp=0\n", "int16s[000] = 2\n"] := by
    decide +kernel
  obtain ⟨last, hlast⟩ := Option.isSome_iff_exists.1 hlast
  have hwatches : ∀ name ∈ options.watches, ∃ bank address,
      symbols.get? bank name = some address := by
    simp only [options, List.forall_mem_cons]
    exact ⟨⟨.int, 0, by decide⟩, ⟨.bit, 1, by decide⟩, by simp⟩
  have hosc : ∀ name ∈ options.oscillator, ∃ address, symbols.get? .bit name = some address :=
    fun name hname => ⟨0, Option.some.inj hname ▸ by decide⟩
  obtain ⟨t, lines, _, ht, -, -, htexts, ⟨es, hes, hdump⟩, hlines, hfault⟩ :=
    transcript_shows_memories (i := i) rfl rfl rfl hread hwatches hosc hlast
  rw [ht, Option.map_some, Option.some_inj, htexts] at hprinted
  simp only [options, Bool.false_eq_true, if_false, if_true, List.nil_append, List.append_nil,
    List.cons_append, List.cons.injEq] at hprinted
  have hsplit : lines ++ [last.dump] =
      ["     1: count=1  lamp=1\n", "     2: count=2  lamp=0\n"] ++ ["int16s[000] = 2\n"] := hprinted.2
  obtain ⟨hwatched, hlastDump⟩ := List.append_inj' hsplit rfl
  rw [List.singleton_inj.1 hlastDump] at hdump
  exact ⟨t, ht, ⟨last, es, hlast, hes, hdump⟩, hwatched ▸ hlines, hfault⟩

end CommandLine

end LadderMachine
