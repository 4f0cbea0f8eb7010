import LadderMachine.Proofs.Machine.Safety
import LadderMachine.Proofs.Simulator.Actions
import LadderMachine.Proofs.Simulator.Devices

/-!
# Simulators stay consistent

The program, the names and the pins of a simulator are replaced together, and memory keeps its size,
so what the image refers to stays inside memory through every history of a simulator: whatever is
written, run or read in, with whatever devices, as long as these write to memory as a host does.
-/

namespace LadderMachine

open Container (Source)

def Outcome.InProgram (o : Outcome) : Prop := ∀ pc target, o ≠ .invalidJump pc target

namespace Simulator

variable {σ τ : Type} {config : Config} {s s' : Simulator σ} {budget n : Nat}

/-- Memory has the configured size, and all that the image refers to lies inside. -/
structure Consistent (config : Config) (s : Simulator σ) : Prop where
  config_eq : s.config = config
  capacity_eq (b : Bank) : s.memory.capacity b = config.geometry.capacity b
  fits : s.image.Fits config.geometry
  addressFaults_eq : s.machine.statistics.addressFaults = 0
  device : s.device.WritesAsHost

theorem consistent_ofImage {image : Image} {device : Device σ} (h : image.Fits config.geometry)
    (hd : device.WritesAsHost) (state : σ) :
    (ofImage image config device state).Consistent config where
  config_eq := rfl
  capacity_eq b := by cases b <;> simp [memory, ofImage, Machine.ofConfig, Memory.ofGeometry,
    Memory.zero, Memory.capacity, Geometry.capacity]
  fits := h
  addressFaults_eq := rfl
  device := hd

namespace Consistent

theorem attach (h : s.Consistent config) {device : Device τ} (hd : device.WritesAsHost) (state : τ) :
    (s.attach device state).Consistent config :=
  ⟨h.config_eq, h.capacity_eq, h.fits, h.addressFaults_eq, hd⟩

theorem withMemory (h : s.Consistent config) {m : Memory}
    (hm : ∀ b, m.capacity b = s.memory.capacity b) : (s.withMemory m).Consistent config :=
  ⟨h.config_eq, fun b => (hm b).trans (h.capacity_eq b), h.fits, h.addressFaults_eq, h.device⟩

theorem reload (h : s.Consistent config) {image : Image} (hi : image.Fits config.geometry) :
    (s.reload image).value.Consistent config :=
  ⟨h.config_eq, h.capacity_eq, hi, h.addressFaults_eq, h.device⟩

/-- The cycle of a tick starts in a memory of the same size, in which it cannot go wrong. -/
theorem tick (h : s.Consistent config) {r : Logged (Outcome × Simulator σ)}
    (hr : s.tick budget = some r) : r.value.2.Consistent config ∧ r.value.1.InProgram := by
  obtain ⟨done, hdone, hr⟩ := exists_cycle_of_tick hr
  have hcap : s.fed.memory.capacity = config.geometry.capacity := by
    funext b
    exact ((h.device s.state s.pins s.memory).capacity_eq b).trans (h.capacity_eq b)
  have ha : s.fed.program.AcceptedWithin s.fed.memory.capacity := hcap ▸ h.fits.acceptedWithin
  rw [hr]
  refine ⟨⟨h.config_eq, fun b => ?_, ?_, ?_, h.device⟩, ?_⟩
  · exact (Machine.capacity_eq_of_cycle hdone b).trans (congrFun hcap b)
  · rw [image_settled hdone]
    exact h.fits
  · exact (Machine.addressFaults_of_cycle ha hdone).trans h.addressFaults_eq
  · exact (Machine.regular_of_cycle ha.accepted hdone).outcome_ne_invalidJump

theorem ticks (h : s.Consistent config) {outcomes : List Outcome}
    (ht : s.ticks budget n = some (outcomes, s')) :
    s'.Consistent config ∧ ∀ o ∈ outcomes, o.InProgram :=
  ticks_induct (fun hr h => tick h hr) ht h

theorem lt_capacity (h : s.Consistent config) {bank : Bank} {name : String} {address : Nat}
    (ha : s.symbols.get? bank name = some address) : address < s.memory.capacity bank :=
  (h.capacity_eq bank).symm ▸ h.fits.symbols ha

theorem outcomes (h : s.Consistent config) (a : Action) :
    ∀ o ∈ s.outcomes budget a, o.InProgram := by
  rw [Simulator.outcomes]
  cases ht : s.ticks budget a.ticks with
  | none => simp
  | some t => exact (h.ticks ht).2

theorem act (h : s.Consistent config) {a : Action} {answer : Answer}
    (ha : s.act budget a = some (answer, s')) : s'.Consistent config := by
  cases does_of_act ha with
  | ticks hl ht => exact (h.ticks ht).1
  | writes hl hn hm => exact h.withMemory hm
  | reloads hl hn hi => exact h.reload (Source.fits (h.config_eq ▸ hi))

end Consistent

/-- Simulators to which loads, actions and changes of the device have led, with the outcomes of all
ticks so far, oldest first. -/
inductive History (config : Config) : {σ : Type} → List Outcome → Simulator σ → Prop
  | load {σ : Type} {source : Source} {image : Image} {device : Device σ}
      (h : (source.read config).value = .ok image) (hd : device.WritesAsHost) (state : σ) :
    History config [] (ofImage image config device state)
  | act {σ : Type} {outcomes : List Outcome} {s s' : Simulator σ} {budget : Nat} {a : Action}
      {answer : Answer} (h : History config outcomes s) (ha : s.act budget a = some (answer, s')) :
    History config (outcomes ++ s.outcomes budget a) s'
  | attach {σ τ : Type} {outcomes : List Outcome} {s : Simulator σ} {device : Device τ}
      (h : History config outcomes s) (hd : device.WritesAsHost) (state : τ) :
    History config outcomes (s.attach device state)

theorem History.observe {outcomes : List Outcome} {actions : List Action} {seen : List Observation}
    (h : History config outcomes s) (ho : s.observe budget actions = some (seen, s')) :
    ∃ later, later.length = (actions.map Action.ticks).sum ∧
      History config (outcomes ++ later) s' := by
  induction actions generalizing s seen outcomes with
  | nil =>
    cases ho
    exact ⟨[], rfl, by rwa [List.append_nil]⟩
  | cons a rest ih =>
    obtain ⟨answer, t, seen', ha, hrest, -⟩ := observe_cons_eq_some_iff.1 ho
    obtain ⟨later, hl, hlater⟩ := ih (h.act ha) hrest
    refine ⟨s.outcomes budget a ++ later, ?_, by rwa [← List.append_assoc]⟩
    rw [List.length_append, length_outcomes ha, hl, List.map_cons, List.sum_cons]

/-- At the end of every history the simulator is consistent, no tick has jumped astray, and the host
has access to all names. -/
theorem history_consistent {outcomes : List Outcome} (h : History config outcomes s) :
    s.Consistent config ∧ (∀ o ∈ outcomes, o.InProgram) ∧
      s.Access .bit Memory.bit? s.readBit s.writeBit ∧
      s.Access .int Memory.integer? s.readInteger s.writeInteger := by
  have hc : s.Consistent config ∧ ∀ o ∈ outcomes, o.InProgram := by
    induction h with
    | load h hd state => exact ⟨consistent_ofImage (Source.fits h) hd state, by simp⟩
    | act _ ha ih =>
      obtain ⟨hs, ho⟩ := ih
      exact ⟨hs.act ha, List.forall_mem_append.2 ⟨ho, hs.outcomes _⟩⟩
    | attach _ hd state ih => exact ⟨ih.1.attach hd state, ih.2⟩
  exact ⟨hc.1, hc.2, access_bits hc.1.lt_capacity, access_integers hc.1.lt_capacity⟩

/-- A tick with a bit that a console drives, a write, a failed and a successful reload, and two ticks
without the console. -/
theorem history_consistent_reloaded :
    let config : Config := { geometry := ⟨2, 1, 4⟩ }
    ∃ outcomes, ∃ s : Simulator Unit, History config outcomes s ∧ outcomes.length = 3 ∧
      s.Consistent config ∧ (∀ o ∈ outcomes, o.InProgram) ∧
      ∃ s', s.writeBit "lamp" false = .ok s' := by
  intro config
  let first := Source.text
    "$$LDcode\n060000000000000000000000\nff0000000000000000000000\n$$int16s\ncount,0\nX1,1\n"
  let image : Image := ⟨⟨#[.increment 0, .endOfProgram]⟩, (PinMap.ofCounts {}).insert ⟨.input, 1⟩ 1,
    (({} : Symbols).insert .int "count" 0).insert .bit "X1" 1, 10000⟩
  have hi : (first.read config).value = .ok image := by rfl
  let second := Source.text "$$LDcode\nff0000000000000000000000\n$$bits\nlamp,1\n"
  have hlamp : (((ofImage image config Console.device { oscillator := some 1 }).observe 9
      [.tick, .writeInteger "count" 7, .reload (.text "$$LDcode\n"), .reload second]).bind fun r =>
        (r.2.attach .absent ()).observe 9 [.run 2]).map (fun r => r.2.symbols.get? .bit "lamp") =
      some (some 1) := by decide +kernel
  obtain ⟨⟨_, s⟩, hs, hname⟩ := Option.map_eq_some_iff.1 hlamp
  obtain ⟨⟨_, t⟩, ht, hs⟩ := Option.bind_eq_some_iff.1 hs
  obtain ⟨one, hone, h⟩ := (History.load hi Console.writesAsHost_device _).observe ht
  obtain ⟨two, htwo, h⟩ := (h.attach Device.writesAsHost_absent ()).observe hs
  obtain ⟨hc, ho, hbits, -⟩ := history_consistent h
  refine ⟨_, s, h, ?_, hc, ho, (hbits.write_iff "lamp" false).2 ⟨1, hname⟩⟩
  simp [hone, htwo, Action.ticks]

end Simulator

end LadderMachine
