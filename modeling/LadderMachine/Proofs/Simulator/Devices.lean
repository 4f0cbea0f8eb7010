import LadderMachine.Device
import LadderMachine.Proofs.Machine.History

/-!
# Devices that write as a host does

A device that touches memory by writes of a host only can change every cell, but no capacity. All
devices of this library are of that kind.
-/

namespace LadderMachine

namespace Memory

variable {m₁ m₂ : Memory}

/-- Writes of a host lead from one memory to the other. -/
def Hosted (m₁ m₂ : Memory) : Prop := ∃ writes : List HostWrite, m₂ = writes.foldl host m₁

theorem Hosted.refl (m : Memory) : m.Hosted m := ⟨[], rfl⟩

theorem hosted_of_writeBit {m m' : Memory} {address : Nat} {value : Bool}
    (h : m.writeBit address value = .ok m') : m.Hosted m' :=
  ⟨[.bit address value], by simp [host, h]⟩

theorem Hosted.capacity_eq (h : m₁.Hosted m₂) (b : Bank) : m₂.capacity b = m₁.capacity b := by
  obtain ⟨ws, rfl⟩ := h
  induction ws generalizing m₁ with
  | nil => rfl
  | cons w ws ih => exact ih.trans (m₁.capacity_host w b)

end Memory

/-- Whatever its state and the pins, the device changes memory by writes of a host only. -/
def Device.WritesAsHost {σ : Type} (d : Device σ) : Prop :=
  ∀ (state : σ) (pins : PinMap) (m : Memory), m.Hosted (d.readInputs state pins m).value.2

theorem Device.writesAsHost_absent : absent.WritesAsHost := fun _ _ m => .refl m

theorem Console.writesAsHost_device : Console.device.WritesAsHost := by
  intro c pins m
  simp only [device, drive]
  split
  · exact .refl m
  · split
    · next hw => exact Memory.hosted_of_writeBit hw
    · exact .refl m

end LadderMachine
