import LadderMachine.CommandLine.Transcript
import LadderMachine.Proofs.Machine.Moves

/-!
# Who reports a fault of the oscillator

Events are `Calm` if no fault of the oscillator is among them. Reading a container, listing a program
and running a machine report calm events only, so only the console itself can report such a fault.
-/

namespace LadderMachine

/-- None of the events is a fault of the oscillator. -/
def Calm (events : List Event) : Prop := ∀ reason, Event.oscillatorFault reason ∉ events

section Lists

variable {events more : List Event}

@[simp] theorem calm_nil : Calm [] := by simp [Calm]

@[simp] theorem calm_append : Calm (events ++ more) ↔ Calm events ∧ Calm more := by
  simp [Calm, forall_and]

end Lists

namespace Scan

variable {s : Scan} {p : Progress} {events : List Event}

theorem calm_reports (s : Scan) (i : Instruction) : Calm (s.reports i) := by
  intro reason h
  rcases of_mem_reports h with he | ⟨a, he⟩
  · cases he
  · cases a <;> cases he

theorem Moves.calm (h : s.Moves p events) : Calm events := by
  cases h with
  | pastEnd | limit => simp [Calm]
  | next | jump | finish => exact calm_reports s _
  | astray => exact calm_append.2 ⟨calm_reports s _, by simp [Calm]⟩

theorem calm_of_run {budget : Nat} {log : Array Event} {e : CycleEnd}
    (h : s.run budget log = some e) (hlog : Calm log.toList) : Calm e.events := by
  refine run_induct (P := fun _ log e => Calm log → Calm e.events) ?_ ?_ h hlog
  · intro _ _ _ _ _ hm hlog
    exact calm_append.2 ⟨hlog, hm.calm⟩
  · intro _ _ _ _ _ hm ih hlog
    exact ih (calm_append.2 ⟨hlog, hm.calm⟩)

end Scan

theorem Machine.calm_of_cycle {m : Machine} {budget : Nat} {e : CycleEnd}
    (h : m.cycle budget = some e) : Calm e.events :=
  Scan.calm_of_run h calm_nil

namespace Container

namespace Metadata

variable {g : Geometry} {number : Nat} {line : List Char} {s : Metadata}

theorem calm_remapEvents (s : Metadata) (number : Nat) (m : Mapping) :
    Calm (s.remapEvents number m) := by
  unfold remapEvents
  split <;> simp [Calm]

theorem calm_pinEvents (s : Metadata) (number : Nat) (m : Mapping) :
    Calm (s.pinEvents number m) := by
  unfold pinEvents
  split
  · split <;> simp [Calm]
  · exact calm_nil

theorem calm_readLine {r : Logged Metadata} (h : s.readLine g number line = .ok r) :
    Calm r.events := by
  unfold readLine at h
  cases hk : Line.classify line with
  | blank | heading =>
    rw [hk] at h
    cases h
    exact calm_nil
  | cycle suffix =>
    simp only [hk] at h
    split at h
    · cases h
    · cases h
      exact calm_nil
  | sentinel =>
    rw [hk] at h
    cases h
    simp [Calm]
  | data =>
    simp only [hk, readMapping] at h
    split at h
    · cases h
    · split at h
      · cases h
        exact calm_append.2 ⟨calm_remapEvents _ _ _, calm_pinEvents _ _ _⟩
      · cases h

theorem calm_readLines (g : Geometry) (number : Nat) (ls : List (List Char)) (s : Metadata) :
    Calm (readLines g number ls s).events := by
  induction ls generalizing number s with
  | nil => exact calm_nil
  | cons line rest ih =>
    unfold readLines
    split
    · exact calm_nil
    · next h => exact calm_append.2 ⟨calm_readLine h, ih _ _⟩

end Metadata

theorem calm_finish (g : Geometry) (instructions : List Instruction) (s : Metadata) :
    Calm (finish g instructions s).events := by
  unfold finish
  split <;> simp [Calm]

theorem calm_complete (code : CodeSection) (config : Config) : Calm (code.complete config).events := by
  have hlines := Metadata.calm_readLines config.geometry code.next code.rest (code.metadata config)
  unfold CodeSection.complete
  simp only
  split
  · exact hlines
  · exact calm_append.2 ⟨hlines, calm_finish _ _ _⟩

theorem calm_readLines (config : Config) (ls : List (List Char)) :
    Calm (readLines config ls).events := by
  unfold readLines
  split
  · exact calm_nil
  · split
    · split
      · exact calm_nil
      · exact calm_complete _ config
    · exact calm_nil

theorem calm_readBytes (bytes : ByteArray) (config : Config) :
    Calm (readBytes bytes config).events := by
  unfold readBytes
  split
  · exact calm_nil
  · exact calm_readLines config _

theorem calm_readContents (path : String) (contents : Except ReadFault ByteArray)
    (config : Config) : Calm (readContents path contents config).events := by
  unfold readContents
  split
  · exact calm_nil
  · next bytes =>
    have hloading : Calm [.loading path bytes.size] := by simp [Calm]
    exact calm_append.2 ⟨hloading, calm_readBytes bytes config⟩

end Container

theorem Listing.calm_events (l : Listing) : Calm l.events := by
  unfold events
  split <;> simp [Calm]

theorem Console.calm_outputs (memory : Memory) (entries : List (Nat × Nat)) :
    Calm (entries.map (outputEvent memory)) := by
  simp [Calm, outputEvent]

theorem CommandLine.Session.calm_outcomeEvents (cycle : Nat) (outcome : Outcome) :
    Calm (outcomeEvents cycle outcome) := by
  cases outcome <;> simp [outcomeEvents, Calm]

end LadderMachine
