import LadderMachine.Proofs.Container.RoundTrip
import LadderMachine.Proofs.Container.Sources

/-!
# How the tables of an image belong together

A mapping is entered side by side in two tables, by name and by pin. They stay `Linked` with every line
that is taken in, whatever it overwrites: a mapped pin has a name with its address, and a name of a pin
that has a place in its table maps it. With what is known of the program and of the names, this makes
up a `Coherent` image.
-/

namespace LadderMachine

/-- Each entry of the pin tables goes back to a name, and the names of pins have entries there. -/
structure Container.Metadata.Linked (s : Container.Metadata) : Prop where
  named {kind : PinKind} {index address : Nat} (h : s.pins.get? kind index = some address) :
    ∃ name, Pin.ofName? name.toList = some ⟨kind, index⟩ ∧
      s.symbols.get? kind.bank name = some address
  mapped {kind : PinKind} {index address : Nat} {name : String}
    (hi : index < s.pins.capacity kind) (hp : Pin.ofName? name.toList = some ⟨kind, index⟩)
    (h : s.symbols.get? kind.bank name = some address) :
    ∃ mapped, s.pins.get? kind index = some mapped

structure Image.Coherent (config : Config) (image : Image) : Prop where
  program : Program.validate image.program.instructions.toList config.geometry = .ok image.program
  inputs : image.pins.capacity .input = config.pins.inputs
  outputs : image.pins.capacity .output = config.pins.outputs
  analogs : image.pins.capacity .analog = config.pins.analogs
  /-- A name is not empty or blank at its ends, holds no comma or line feed, stands in the bank of its
  pin and has the address of a cell. -/
  names : ∀ bank, ∀ e ∈ image.symbols.entries bank, Container.Held config.geometry bank e
  /-- A mapped pin has a name with its address. -/
  pins : ∀ kind index address, image.pins.get? kind index = some address →
    ∃ e ∈ image.symbols.entries kind.bank, Pin.ofName? e.1.toList = some ⟨kind, index⟩ ∧
      e.2 = address
  /-- A name of a pin that has a place in its table maps it, and to its own address if it is the only
  one. -/
  mapped : ∀ bank, ∀ e ∈ image.symbols.entries bank, ∀ kind index,
    Pin.ofName? e.1.toList = some ⟨kind, index⟩ → index < image.pins.capacity kind →
      (∃ address, image.pins.get? kind index = some address) ∧
      ((∀ d ∈ image.symbols.entries bank, Pin.ofName? d.1.toList = some ⟨kind, index⟩ → d = e) →
        image.pins.get? kind index = some e.2)

namespace Container

variable {s : Metadata} {m : Mapping} {sts : List Statement} {config : Config} {c : Contents}
  {text : String} {image : Image}

theorem pin?_eq_of_label {name : String} (h : m.label = name) :
    m.pin? = Pin.ofName? name.toList := by
  rw [Mapping.pin?, ← h, Mapping.label, String.toList_ofList]

namespace Metadata

theorem Linked.enter (h : s.Linked) : (s.enter m).Linked where
  named := by
    intro kind index address hget
    have hi := PinMap.lt_capacity_of_get? hget
    rw [capacity_pins_enter] at hi
    rw [get?_pins_enter hi] at hget
    by_cases hpin : m.pin? = some ⟨kind, index⟩
    · rw [if_pos hpin, Option.some_inj] at hget
      have hbank : m.bank s.bank = kind.bank := Mapping.bank_of_pin hpin s.bank
      refine ⟨m.label, ?_, ?_⟩
      · rw [← pin?_eq_of_label rfl, hpin]
      · rw [get?_symbols_enter, if_pos ⟨hbank, rfl⟩, hget]
    · rw [if_neg hpin] at hget
      obtain ⟨name, hname, haddress⟩ := h.named hget
      refine ⟨name, hname, ?_⟩
      -- The new name is not one of this pin, so it does not take the place of the old one.
      have hne : ¬ (m.bank s.bank = kind.bank ∧ m.label = name) := by
        rintro ⟨-, hlabel⟩
        exact hpin ((pin?_eq_of_label hlabel).trans hname)
      rw [get?_symbols_enter, if_neg hne, haddress]
  mapped := by
    intro kind index address name hi hp hget
    rw [capacity_pins_enter] at hi
    rw [get?_symbols_enter] at hget
    rw [get?_pins_enter hi]
    by_cases hpin : m.pin? = some ⟨kind, index⟩
    · exact ⟨m.address, if_pos hpin⟩
    · rw [if_neg hpin]
      have hne : ¬ (m.bank s.bank = kind.bank ∧ m.label = name) := by
        rintro ⟨-, hlabel⟩
        exact hpin ((pin?_eq_of_label hlabel).trans hp)
      rw [if_neg hne] at hget
      exact h.mapped hi hp hget

theorem Linked.take (h : s.Linked) (st : Statement) : (s.take st).Linked := by
  cases st with
  | nothing => exact h
  | bank selected => exact ⟨h.named, h.mapped⟩
  | time given => exact ⟨h.named, h.mapped⟩
  | mapping m => exact h.enter

theorem Linked.foldl_take (h : s.Linked) : (sts.foldl Metadata.take s).Linked := by
  induction sts generalizing s with
  | nil => exact h
  | cons st rest ih => exact ih (h.take st)

end Metadata

theorem Contents.linked_start : (c.start config).Linked where
  named := by
    intro kind index address h
    have hnone : (c.start config).pins.get? kind index = none :=
      get?_ofCounts config.pins kind index
    cases hnone.symm.trans h
  mapped := by
    intro kind index address name _ _ h
    have hnone : (c.start config).symbols.get? kind.bank name = none := by
      cases kind.bank <;> rfl
    cases hnone.symm.trans h

/-- What is read from a container is a coherent image. -/
theorem coherent_of_read (h : (read text config).value = .ok image) : image.Coherent config := by
  have hvalid : Program.validate image.program.instructions.toList config.geometry =
      .ok image.program := Program.validate_eq_ok_iff.2 ⟨rfl, wellFormed_of_read h⟩
  have hcapacity := capacity_of_read h
  have hheld : ∀ bank, ∀ e ∈ image.symbols.entries bank, Held config.geometry bank e :=
    fun bank e he => (held_of_read h he).1
  obtain ⟨c, -, -, rfl⟩ := read_eq_ok_iff.1 h
  have hlinked : (c.metadata config).Linked := Contents.linked_start.foldl_take
  have hnamed : ∀ kind index address, (c.image config).pins.get? kind index = some address →
      ∃ e ∈ (c.image config).symbols.entries kind.bank,
        Pin.ofName? e.1.toList = some ⟨kind, index⟩ ∧ e.2 = address := by
    intro kind index address hget
    obtain ⟨name, hname, haddress⟩ := hlinked.named hget
    exact ⟨(name, address), Symbols.mem_entries_iff.2 haddress, hname, rfl⟩
  refine ⟨hvalid, ?_, ?_, ?_, hheld, hnamed, ?_⟩
  · exact (hcapacity .input).trans Array.size_replicate
  · exact (hcapacity .output).trans Array.size_replicate
  · exact (hcapacity .analog).trans Array.size_replicate
  · intro bank e he kind index hp hi
    obtain rfl : kind.bank = bank := (hheld bank e he).bank_eq _ hp
    obtain ⟨address, haddress⟩ := hlinked.mapped hi hp (Symbols.mem_entries_iff.1 he)
    refine ⟨⟨address, haddress⟩, ?_⟩
    intro honly
    obtain ⟨d, hd, hpin, rfl⟩ := hnamed kind index address haddress
    rw [← honly d hd hpin]
    exact haddress

/-- Both spellings of a pin are names of the image, and the pin has the address of one of them. -/
theorem coherent_of_read_two_spellings : ∃ image,
    (read "$$LDcode\nff0000000000000000000000\n$$int16s\nX1,5\nX01,3\nA0,4\n" {}).value =
        .ok image ∧
      image.Coherent {} ∧ image.symbols.entries .bit = [("X01", 3), ("X1", 5)] ∧
      image.pins.get? .input 1 = some 3 ∧ image.pins.get? .analog 0 = some 4 := by
  have h : (read "$$LDcode\nff0000000000000000000000\n$$int16s\nX1,5\nX01,3\nA0,4\n" {}).value =
      .ok ⟨⟨#[⟨255, 0, 0, 0, 0⟩]⟩,
        ((PinMap.ofCounts {}).insert ⟨.input, 1⟩ 3).insert ⟨.analog, 0⟩ 4,
        ((({} : Symbols).insert .bit "X1" 5).insert .bit "X01" 3).insert .int "A0" 4, 10000⟩ := by
    rfl
  exact ⟨_, h, coherent_of_read h, by decide, by decide, by decide⟩

end Container

end LadderMachine
