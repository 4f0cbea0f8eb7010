import LadderMachine.Proofs.Container.Sources
import LadderMachine.Proofs.Machine.Counters
import LadderMachine.Proofs.Machine.History
import LadderMachine.Proofs.Simulator.Names

/-!
# What a host does with a simulator

Each `Action` of the host has an `Answer`. An action that ends gives its answer and the simulator it
leaves; one that is refused leaves the simulator as it was. Only ticks need not end, so `act` takes a
budget for each cycle. A run is as many ticks, and it answers how the last one ended.
-/

namespace LadderMachine

open Container (Source)

namespace Memory

def write (m : Memory) : HostWrite → Except AddressError Memory
  | .bit address value => m.writeBit address value
  | .integer address value => m.writeInteger address value
  | .clear => .ok m.clear

theorem host_of_write {m m' : Memory} {w : HostWrite} (h : m.write w = .ok m') : m.host w = m' := by
  cases w with
  | bit address value =>
    simp only [write] at h
    simp only [host, h]
  | integer address value =>
    simp only [write] at h
    simp only [host, h]
  | clear => exact Except.ok.inj h

end Memory

inductive Action
  | tick
  | run (cycles : Nat)
  | readBit (name : String)
  | readInteger (name : String)
  | writeBit (name : String) (value : Bool)
  | writeInteger (name : String) (value : Int32)
  | host (w : HostWrite)
  | reload (source : Source)

inductive Answer
  | ticked (outcome : Outcome)
  | ran (last : Option Outcome)
  | bit (value : Except AccessError Bool)
  | integer (value : Except AccessError Int32)
  | named (done : Except AccessError Unit)
  | host (done : Except AddressError Unit)
  | reloaded (done : Except LoadError Unit)
deriving DecidableEq

/-- What a host sees of an action: the answer, memory behind it, and what it adds to the counters. -/
structure Observation where
  answer : Answer
  memory : Memory
  gain : Statistics
deriving DecidableEq

namespace Action

def ticks : Action → Nat
  | tick => 1
  | run n => n
  | _ => 0

/-- The source that has been put in, if the action is a reload that succeeded. -/
def loaded? : Action → Answer → Option Source
  | reload source, .reloaded (.ok ()) => some source
  | _, _ => none

end Action

namespace Simulator

variable {σ : Type} {s s' : Simulator σ} {budget n : Nat}

def image (s : Simulator σ) : Image where
  program := s.machine.program
  pins := s.pins
  symbols := s.symbols
  cycleTime := s.cycleTime

def reloadSource (s : Simulator σ) : Source → Logged (Except LoadError (Simulator σ))
  | .text t => s.reloadText t
  | .bytes b => s.reloadRead (Container.readBytes b s.config)
  | .file path contents => s.reloadFile path contents

theorem reloadSource_eq (s : Simulator σ) (source : Source) :
    s.reloadSource source = s.reloadRead (source.read s.config) := by
  cases source <;> rfl

theorem reloadSource_eq_ok_iff {source : Source} : (s.reloadSource source).value = .ok s' ↔
    ∃ image, (source.read s.config).value = .ok image ∧ s' = (s.reload image).value := by
  rw [reloadSource_eq, reloadRead]
  cases (source.read s.config).value with
  | error e => simp
  | ok image => simp [eq_comm]

/-- Takes over what has been done; what failed has done nothing. -/
def attempt {ε : Type} (s : Simulator σ) (answer : Except ε Unit → Answer) :
    Except ε (Simulator σ) → Answer × Simulator σ
  | .ok done => (answer (.ok ()), done)
  | .error e => (answer (.error e), s)

/-- The answer to an action and the simulator after it, unless one of its cycles does not end within
the budget. -/
def act (budget : Nat) (s : Simulator σ) : Action → Option (Answer × Simulator σ)
  | .tick => (s.tick budget).map fun r => (.ticked r.value.1, r.value.2)
  | .run n => (s.run budget n).map fun r => (.ran r.value.1, r.value.2)
  | .readBit name => some (.bit (s.readBit name), s)
  | .readInteger name => some (.integer (s.readInteger name), s)
  | .writeBit name value => some (s.attempt .named (s.writeBit name value))
  | .writeInteger name value => some (s.attempt .named (s.writeInteger name value))
  | .host w => some (s.attempt .host ((s.memory.write w).map s.withMemory))
  | .reload source => some (s.attempt .reloaded (s.reloadSource source).value)

def fed (s : Simulator σ) : Machine :=
  { s.machine with memory := (s.device.readInputs s.state s.pins s.memory).value.2 }

def settled (s : Simulator σ) (done : CycleEnd) : Simulator σ :=
  { s with
    machine := done.machine
    state := (s.device.writeOutputs (s.device.readInputs s.state s.pins s.memory).value.1 s.pins
      done.machine.memory).value }

theorem exists_cycle_of_tick {r : Logged (Outcome × Simulator σ)} (h : s.tick budget = some r) :
    ∃ done, s.fed.cycle budget = some done ∧ r.value = (done.outcome, s.settled done) := by
  rw [tick, ← fed] at h
  cases hc : s.fed.cycle budget with
  | none => simp [hc] at h
  | some done =>
    simp only [hc, Option.some.injEq] at h
    exact ⟨done, rfl, by rw [← h, settled]⟩

theorem exists_tick_of_cycle {done : CycleEnd} (h : s.fed.cycle budget = some done) :
    ∃ r, s.tick budget = some r ∧ r.value = (done.outcome, s.settled done) := by
  rw [tick, ← fed, h]
  exact ⟨_, rfl, rfl⟩

theorem image_settled {done : CycleEnd} (h : s.fed.cycle budget = some done) :
    (s.settled done).image = s.image := by
  rw [image, settled, Machine.program_eq_of_cycle h]
  rfl

/-- Outcomes of ticks one after the other, oldest first, and the simulator behind the last of them. -/
def ticks (budget : Nat) : Nat → Simulator σ → Option (List Outcome × Simulator σ)
  | 0, s => some ([], s)
  | n + 1, s =>
    match s.tick budget with
    | none => none
    | some r => (ticks budget n r.value.2).map fun t => (r.value.1 :: t.1, t.2)

theorem ticks_succ_eq_some_iff {outcomes : List Outcome} :
    s.ticks budget (n + 1) = some (outcomes, s') ↔ ∃ r later, s.tick budget = some r ∧
      r.value.2.ticks budget n = some (later, s') ∧ outcomes = r.value.1 :: later := by
  rw [ticks]
  cases s.tick budget with
  | none => simp
  | some r =>
    simp only [Option.map_eq_some_iff, Prod.mk.injEq, Prod.exists, Option.some.injEq]
    constructor
    · rintro ⟨later, t, ht, rfl, rfl⟩
      exact ⟨r, later, rfl, ht, rfl⟩
    · rintro ⟨_, later, rfl, ht, rfl⟩
      exact ⟨later, s', ht, rfl, rfl⟩

theorem length_ticks {outcomes : List Outcome} (h : s.ticks budget n = some (outcomes, s')) :
    outcomes.length = n := by
  induction n generalizing s outcomes with
  | zero =>
    cases h
    rfl
  | succ n ih =>
    obtain ⟨r, later, -, hlater, rfl⟩ := ticks_succ_eq_some_iff.1 h
    rw [List.length_cons, ih hlater]

/-- A property that every tick keeps holds behind ticks one after the other, and what it says of the
outcome of a tick holds of all their outcomes. -/
theorem ticks_induct {P : Simulator σ → Prop} {Q : Outcome → Prop}
    (tick : ∀ {s r}, s.tick budget = some r → P s → P r.value.2 ∧ Q r.value.1)
    {outcomes : List Outcome} (h : s.ticks budget n = some (outcomes, s')) (hs : P s) :
    P s' ∧ ∀ o ∈ outcomes, Q o := by
  induction n generalizing s outcomes with
  | zero =>
    cases h
    exact ⟨hs, by simp⟩
  | succ n ih =>
    obtain ⟨r, later, hr, hlater, rfl⟩ := ticks_succ_eq_some_iff.1 h
    obtain ⟨hp, hq⟩ := tick hr hs
    obtain ⟨hp', hq'⟩ := ih hlater hp
    exact ⟨hp', List.forall_mem_cons.2 ⟨hq, hq'⟩⟩

theorem runFrom_eq_ticks (budget n : Nat) (s : Simulator σ) (last : Option Outcome)
    (log : Array Event) :
    (runFrom budget n last s log).map (·.value) =
      (s.ticks budget n).map fun t => (t.1.getLast?.or last, t.2) := by
  induction n generalizing s last log with
  | zero => rfl
  | succ n ih =>
    rw [runFrom, ticks]
    cases s.tick budget with
    | none => rfl
    | some r =>
      simp only [ih, Option.map_map, Function.comp_def, List.getLast?_cons]
      congr 1
      funext t
      cases t.1.getLast? <;> rfl

/-- A run is ticks one after the other, and answers the outcome of the last. -/
theorem act_run_eq (s : Simulator σ) (n : Nat) :
    s.act budget (.run n) = (s.ticks budget n).map fun t => (.ran t.1.getLast?, t.2) := by
  have h := congrArg (Option.map fun v => (Answer.ran v.1, v.2))
    (runFrom_eq_ticks budget n s none #[])
  simpa [act, run, Option.map_map, Function.comp_def] using h

/-- What an action can do: it ticks, it writes to memory if anything, or it puts in an image that has
been read. -/
inductive Does (budget : Nat) (s : Simulator σ) (a : Action) (answer : Answer) : Simulator σ → Prop
  | ticks {outcomes : List Outcome} {s' : Simulator σ} (hl : a.loaded? answer = none)
      (h : s.ticks budget a.ticks = some (outcomes, s')) : Does budget s a answer s'
  | writes {m : Memory} (hl : a.loaded? answer = none) (hn : a.ticks = 0)
      (hm : ∀ b, m.capacity b = s.memory.capacity b) : Does budget s a answer (s.withMemory m)
  | reloads {source : Source} {image : Image} (hl : a.loaded? answer = some source)
      (hn : a.ticks = 0) (hi : (source.read s.config).value = .ok image) :
    Does budget s a answer (s.reload image).value

theorem Does.nothing {a : Action} {answer : Answer} (hl : a.loaded? answer = none)
    (hn : a.ticks = 0) : s.Does budget a answer s :=
  .writes (m := s.memory) hl hn fun _ => rfl

theorem Does.of_attempt {a : Action} {ε : Type} {answer : Except ε Unit → Answer}
    {r : Except ε (Simulator σ)} {given : Answer}
    (h : some (s.attempt answer r) = some (given, s')) (hl : a.loaded? given = none)
    (hn : a.ticks = 0)
    (hr : r = .ok s' → ∃ m, (∀ b, m.capacity b = s.memory.capacity b) ∧ s' = s.withMemory m) :
    s.Does budget a given s' := by
  cases r with
  | error e =>
    cases h
    exact .nothing hl hn
  | ok done =>
    cases h
    obtain ⟨m, hm, rfl⟩ := hr rfl
    exact .writes hl hn hm

theorem does_of_act {a : Action} {answer : Answer} (h : s.act budget a = some (answer, s')) :
    s.Does budget a answer s' := by
  cases a with
  | tick =>
    obtain ⟨r, hr, he⟩ := Option.map_eq_some_iff.1 h
    cases he
    exact .ticks rfl (ticks_succ_eq_some_iff.2 ⟨r, [], hr, rfl, rfl⟩)
  | run n =>
    rw [act_run_eq] at h
    obtain ⟨t, ht, he⟩ := Option.map_eq_some_iff.1 h
    cases he
    exact .ticks rfl ht
  | readBit | readInteger =>
    cases h
    exact .nothing rfl rfl
  | writeBit name value =>
    refine .of_attempt h rfl rfl fun hw => ?_
    rw [writeBit_eq] at hw
    obtain ⟨_, m, _, hm, hs⟩ := exists_of_writeCell hw
    exact ⟨m, Memory.capacity_setBit? hm, hs⟩
  | writeInteger name value =>
    refine .of_attempt h rfl rfl fun hw => ?_
    rw [writeInteger_eq] at hw
    obtain ⟨_, m, _, hm, hs⟩ := exists_of_writeCell hw
    exact ⟨m, Memory.capacity_setInteger? hm, hs⟩
  | host w =>
    refine .of_attempt h rfl rfl fun hw => ?_
    cases hm : s.memory.write w with
    | error e => simp [hm, Except.map] at hw
    | ok m =>
      simp only [hm, Except.map, Except.ok.injEq] at hw
      refine ⟨m, fun b => ?_, hw.symm⟩
      rw [← Memory.host_of_write hm]
      exact s.memory.capacity_host w b
  | reload source =>
    cases hr : (s.reloadSource source).value with
    | error e =>
      simp only [act, hr] at h
      cases h
      exact .nothing rfl rfl
    | ok done =>
      simp only [act, hr] at h
      cases h
      obtain ⟨image, hi, rfl⟩ := reloadSource_eq_ok_iff.1 hr
      exact .reloads rfl rfl hi

def outcomes (budget : Nat) (s : Simulator σ) (a : Action) : List Outcome :=
  ((s.ticks budget a.ticks).map Prod.fst).getD []

theorem length_outcomes {a : Action} {answer : Answer} (h : s.act budget a = some (answer, s')) :
    (s.outcomes budget a).length = a.ticks := by
  cases does_of_act h with
  | ticks hl ht =>
    rw [outcomes, ht]
    exact length_ticks ht
  | writes hl hn | reloads hl hn =>
    rw [outcomes, hn]
    rfl

/-- What is seen of actions one after the other, and the simulator behind the last of them. -/
def observe (budget : Nat) : List Action → Simulator σ → Option (List Observation × Simulator σ)
  | [], s => some ([], s)
  | a :: rest, s =>
    match s.act budget a with
    | none => none
    | some (answer, s') => (observe budget rest s').map fun r =>
      (⟨answer, s'.memory, s'.machine.statistics - s.machine.statistics⟩ :: r.1, r.2)

theorem observe_cons_eq_some_iff {a : Action} {rest : List Action} {seen : List Observation} :
    s.observe budget (a :: rest) = some (seen, s') ↔ ∃ answer t later,
      s.act budget a = some (answer, t) ∧ t.observe budget rest = some (later, s') ∧
      seen = ⟨answer, t.memory, t.machine.statistics - s.machine.statistics⟩ :: later := by
  rw [observe]
  cases s.act budget a with
  | none => simp
  | some r =>
    obtain ⟨answer, t⟩ := r
    simp only [Option.map_eq_some_iff, Prod.mk.injEq, Prod.exists, Option.some.injEq]
    constructor
    · rintro ⟨later, u, hu, rfl, rfl⟩
      exact ⟨answer, t, later, ⟨rfl, rfl⟩, hu, rfl⟩
    · rintro ⟨_, _, later, ⟨rfl, rfl⟩, hu, rfl⟩
      exact ⟨later, s', hu, rfl, rfl⟩

end Simulator

end LadderMachine
