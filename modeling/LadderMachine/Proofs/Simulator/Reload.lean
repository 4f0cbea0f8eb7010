import LadderMachine.Proofs.Machine.TwoRuns
import LadderMachine.Proofs.Simulator.Actions

/-!
# Reloading carries over memory and nothing else

Two simulators are `Alike` if they agree in everything but what they have counted and what their
machines have reported and trace. From then on they give the same answers, the same memory and the
same gains to all actions. A simulator without a device that has last read some source holds its image
and nothing of earlier ones, so two of them with the same source and the same memory are alike. A
reload leaves memory and statistics as it finds them.
-/

namespace LadderMachine

open Container (Source)

namespace Simulator

variable {σ : Type} {s t s' t' : Simulator σ} {budget n : Nat}

structure Alike (s t : Simulator σ) : Prop where
  machine : s.machine.Alike Eq t.machine
  pins_eq : t.pins = s.pins
  symbols_eq : t.symbols = s.symbols
  cycleTime_eq : t.cycleTime = s.cycleTime
  config_eq : t.config = s.config
  device_eq : t.device = s.device
  state_eq : t.state = s.state

namespace Alike

theorem symm (h : s.Alike t) : t.Alike s where
  machine := ⟨h.machine.program_eq.symm, h.machine.stepLimit_eq.symm, h.machine.memory.symm⟩
  pins_eq := h.pins_eq.symm
  symbols_eq := h.symbols_eq.symm
  cycleTime_eq := h.cycleTime_eq.symm
  config_eq := h.config_eq.symm
  device_eq := h.device_eq.symm
  state_eq := h.state_eq.symm

theorem memory_eq (h : s.Alike t) : t.memory = s.memory := h.machine.memory.symm

theorem withMemory (h : s.Alike t) (m : Memory) : (s.withMemory m).Alike (t.withMemory m) where
  machine := ⟨h.machine.program_eq, h.machine.stepLimit_eq, rfl⟩
  pins_eq := h.pins_eq
  symbols_eq := h.symbols_eq
  cycleTime_eq := h.cycleTime_eq
  config_eq := h.config_eq
  device_eq := h.device_eq
  state_eq := h.state_eq

theorem reload (h : s.Alike t) (image : Image) :
    (s.reload image).value.Alike (t.reload image).value where
  machine := ⟨rfl, h.machine.stepLimit_eq, h.machine.memory⟩
  pins_eq := rfl
  symbols_eq := rfl
  cycleTime_eq := rfl
  config_eq := h.config_eq
  device_eq := h.device_eq
  state_eq := h.state_eq

theorem exists_tick (h : s.Alike t) {r : Logged (Outcome × Simulator σ)}
    (hr : s.tick budget = some r) :
    ∃ r', t.tick budget = some r' ∧ r'.value.1 = r.value.1 ∧ r.value.2.Alike r'.value.2 ∧
      s.machine.GrowAlike r.value.2.machine t.machine r'.value.2.machine := by
  obtain ⟨done, hdone, hv⟩ := exists_cycle_of_tick hr
  have hinputs : t.device.readInputs t.state t.pins t.memory =
      s.device.readInputs s.state s.pins s.memory := by
    rw [h.device_eq, h.state_eq, h.pins_eq, h.memory_eq]
  have hfed : s.fed.Alike Eq t.fed :=
    ⟨h.machine.program_eq, h.machine.stepLimit_eq, by rw [fed, fed, hinputs]⟩
  obtain ⟨done', hdone', ho, hend, hgrow⟩ := hfed.exists_cycle (Program.respects_eq _) hdone
  obtain ⟨r', hr', hv'⟩ := exists_tick_of_cycle hdone'
  refine ⟨r', hr', ?_, ?_, ?_⟩
  · rw [hv, hv', ho]
  · rw [hv, hv']
    refine ⟨hend, h.pins_eq, h.symbols_eq, h.cycleTime_eq, h.config_eq, h.device_eq, ?_⟩
    rw [settled, settled, hinputs, h.device_eq, h.pins_eq, hend.memory]
  · rw [hv, hv']
    exact hgrow

end Alike

/-- Two attempts fail with the same error, or they succeed, count nothing and end alike. -/
inductive AttemptsAlike {ε : Type} (s t : Simulator σ) :
    Except ε (Simulator σ) → Except ε (Simulator σ) → Prop
  | error (e : ε) : AttemptsAlike s t (.error e) (.error e)
  | ok {s' t' : Simulator σ} (h : s'.Alike t')
      (hs : s'.machine.statistics = s.machine.statistics)
      (ht : t'.machine.statistics = t.machine.statistics) : AttemptsAlike s t (.ok s') (.ok t')

namespace Alike

theorem writeCell {α : Type} (h : s.Alike t) (bank : Bank)
    (set? : Memory → Nat → α → Option Memory) (name : String) (value : α) :
    s.AttemptsAlike t (s.writeCell bank set? name value) (t.writeCell bank set? name value) := by
  simp only [Simulator.writeCell, resolve, h.symbols_eq, h.memory_eq]
  cases s.symbols.get? bank name with
  | none => exact .error _
  | some address =>
    simp only
    cases set? s.memory address value with
    | none => exact .error _
    | some m => exact .ok (h.withMemory m) rfl rfl

theorem host (h : s.Alike t) (w : HostWrite) :
    s.AttemptsAlike t ((s.memory.write w).map s.withMemory) ((t.memory.write w).map t.withMemory) := by
  rw [h.memory_eq]
  cases s.memory.write w with
  | error e => exact .error e
  | ok m => exact .ok (h.withMemory m) rfl rfl

theorem reloadSource (h : s.Alike t) (source : Source) :
    s.AttemptsAlike t (s.reloadSource source).value (t.reloadSource source).value := by
  simp only [reloadSource_eq, reloadRead, h.config_eq]
  cases (source.read s.config).value with
  | error e => exact .error e
  | ok image => exact .ok (h.reload image) rfl rfl

end Alike

/-- The simulator holds an image under a configuration, with a device. -/
structure Holds (image : Image) (config : Config) (device : Device σ) (s : Simulator σ) : Prop where
  image_eq : s.image = image
  config_eq : s.config = config
  stepLimit_eq : s.machine.stepLimit = config.stepLimit
  device_eq : s.device = device

namespace Holds

variable {image : Image} {config : Config} {device : Device σ}

theorem ofImage (image : Image) (config : Config) (device : Device σ) (state : σ) :
    (ofImage image config device state).Holds image config device := ⟨rfl, rfl, rfl, rfl⟩

theorem withMemory (h : s.Holds image config device) (m : Memory) :
    (s.withMemory m).Holds image config device :=
  ⟨h.image_eq, h.config_eq, h.stepLimit_eq, h.device_eq⟩

theorem reload (h : s.Holds image config device) (image' : Image) :
    (s.reload image').value.Holds image' config device :=
  ⟨rfl, h.config_eq, h.stepLimit_eq, h.device_eq⟩

theorem tick (h : s.Holds image config device) {r : Logged (Outcome × Simulator σ)}
    (hr : s.tick budget = some r) : r.value.2.Holds image config device := by
  obtain ⟨done, hdone, hr⟩ := exists_cycle_of_tick hr
  rw [hr]
  exact ⟨(image_settled hdone).trans h.image_eq, h.config_eq,
    (Machine.stepLimit_eq_of_cycle hdone).trans h.stepLimit_eq, h.device_eq⟩

theorem ticks (h : s.Holds image config device) {outcomes : List Outcome}
    (ht : s.ticks budget n = some (outcomes, s')) : s'.Holds image config device :=
  (ticks_induct (Q := fun _ => True) (fun hr h => ⟨tick h hr, trivial⟩) ht h).1

end Holds

/-- Simulators without a device to which actions have led, with the source that was read last. -/
inductive Since (config : Config) : Source → Simulator Unit → Prop
  | load {source : Source} {image : Image} (h : (source.read config).value = .ok image) :
    Since config source (ofImage image config .absent ())
  | act {source : Source} {s s' : Simulator Unit} {budget : Nat} {a : Action} {answer : Answer}
      (h : Since config source s) (ha : s.act budget a = some (answer, s')) :
    Since config ((a.loaded? answer).getD source) s'

/-- The source read last after actions one after the other. -/
def lastSource (source : Source) (actions : List Action) (seen : List Observation) : Source :=
  (actions.zip (seen.map (·.answer))).foldl (fun source e => (e.1.loaded? e.2).getD source) source

theorem Since.observe {config : Config} {source : Source} {s s' : Simulator Unit}
    {actions : List Action} {seen : List Observation} (h : Since config source s)
    (ho : s.observe budget actions = some (seen, s')) :
    Since config (lastSource source actions seen) s' := by
  induction actions generalizing s seen source with
  | nil =>
    cases ho
    exact h
  | cons a rest ih =>
    obtain ⟨answer, t, later, ha, hrest, rfl⟩ := observe_cons_eq_some_iff.1 ho
    exact ih (h.act ha) hrest

end Simulator

end LadderMachine
