import LadderMachine.Config
import LadderMachine.Proofs.Text.Fields

/-!
# Names of pins

The name of a pin is a letter and a numeral, and the pin's number is the value of the numeral, or the
largest number there is if the value exceeds it (`ofName?_eq_some_iff`). The tables of a valid
configuration are shorter than that. So a pin whose numeral is too large for its table has no place in it
either way, and mapping it changes nothing (`insert_eq_self`).
-/

namespace LadderMachine

namespace Decimal

def Numeral (digits : List Char) : Prop := digits ≠ [] ∧ ∀ c ∈ digits, c.isDigit = true

variable {digits : List Char}

theorem Numeral.zeros (h : Numeral digits) (zeros : Nat) :
    Numeral (List.replicate zeros '0' ++ digits) := by
  refine ⟨List.append_ne_nil_of_right_ne_nil _ h.1, ?_⟩
  intro c hc
  rcases List.mem_append.1 hc with hc | hc
  · rw [(List.mem_replicate.1 hc).2]
    rfl
  · exact h.2 c hc

theorem ofDigitChars_zeros (zeros : Nat) (digits : List Char) :
    Nat.ofDigitChars 10 (List.replicate zeros '0' ++ digits) 0 = Nat.ofDigitChars 10 digits 0 := by
  rw [Nat.ofDigitChars_append, Nat.ofDigitChars_replicate_zero, Nat.mul_zero]

end Decimal

namespace Pin

variable {name digits : List Char} {pin : Pin}

theorem ofName?_of_numeral (h : Decimal.Numeral digits) (kind : PinKind) :
    ofName? (kind.letter :: digits) = some ⟨kind, min (Nat.ofDigitChars 10 digits 0) maxIndex⟩ := by
  have hkind : PinKind.ofLetter? kind.letter = some kind :=
    (PinKind.ofLetter?_eq_some_iff _ _).2 rfl
  have hvalue : Decimal.value? digits = some (Nat.ofDigitChars 10 digits 0) :=
    Decimal.value?_eq_some_iff.2 ⟨h.1, h.2, rfl⟩
  rw [ofName?, hkind, hvalue]
  rfl

theorem ofName?_eq_some_iff : ofName? name = some pin ↔
    ∃ digits, name = pin.kind.letter :: digits ∧ Decimal.Numeral digits ∧
      pin.index = min (Nat.ofDigitChars 10 digits 0) maxIndex := by
  constructor
  · intro h
    cases name with
    | nil => cases h
    | cons c digits =>
      obtain ⟨kind, hkind, hrest⟩ := Option.bind_eq_some_iff.1 h
      obtain ⟨n, hn, hpin⟩ := Option.bind_eq_some_iff.1 hrest
      obtain ⟨hne, hdigits, rfl⟩ := Decimal.value?_eq_some_iff.1 hn
      cases hpin
      rw [(PinKind.ofLetter?_eq_some_iff _ _).1 hkind]
      exact ⟨digits, rfl, ⟨hne, hdigits⟩, rfl⟩
  · rintro ⟨digits, rfl, hd, hi⟩
    rw [ofName?_of_numeral hd, ← hi]

end Pin

theorem Config.capacity_pins_le {c d : Config} (h : c.validate = .ok d) (kind : PinKind) :
    (PinMap.ofCounts c.pins).capacity kind ≤ Pin.maxIndex := by
  have hmax : maxCapacity ≤ Pin.maxIndex := by decide
  have hcount : (PinMap.ofCounts c.pins).capacity kind ≤ maxCapacity := by
    cases kind with
    | input =>
      exact Array.size_replicate.trans_le (le_of_mem_capacities h .inputs (by simp [capacities]))
    | output =>
      exact Array.size_replicate.trans_le (le_of_mem_capacities h .outputs (by simp [capacities]))
    | analog =>
      exact Array.size_replicate.trans_le (le_of_mem_capacities h .analogs (by simp [capacities]))
  exact Nat.le_trans hcount hmax

namespace PinMap

/-- The tables for the given counts, after any pins have been mapped. -/
inductive Filled (counts : PinCounts) : PinMap → Prop
  | empty : Filled counts (.ofCounts counts)
  | insert {m : PinMap} (h : Filled counts m) (pin : Pin) (address : Nat) :
    Filled counts (m.insert pin address)

variable {m : PinMap} {counts : PinCounts} {pin : Pin} {digits : List Char} {kind : PinKind}

theorem Filled.capacity_eq (h : Filled counts m) (kind : PinKind) :
    m.capacity kind = (ofCounts counts).capacity kind := by
  induction h with
  | empty => rfl
  | insert _ pin address ih => rw [capacity_insert, ih]

theorem insert_eq_self (h : m.covers pin = false) (address : Nat) : m.insert pin address = m := by
  obtain ⟨kind, index⟩ := pin
  have hle : m.capacity kind ≤ index := by simpa [covers] using h
  cases kind with
  | input => exact congrArg (PinMap.mk · m.outputs m.analogs) (Array.setIfInBounds_eq_of_size_le hle)
  | output => exact congrArg (PinMap.mk m.inputs · m.analogs) (Array.setIfInBounds_eq_of_size_le hle)
  | analog => exact congrArg (PinMap.mk m.inputs m.outputs) (Array.setIfInBounds_eq_of_size_le hle)

/-- A number that is too large for its table stays so when it is cut down to the largest there is. -/
theorem Filled.covers_eq_false {c d : Config} (hm : m.Filled c.pins) (h : c.validate = .ok d)
    {n : Nat} (hn : m.capacity kind ≤ n) : m.covers ⟨kind, min n Pin.maxIndex⟩ = false := by
  have hmax : m.capacity kind ≤ Pin.maxIndex := by
    rw [hm.capacity_eq]
    exact Config.capacity_pins_le h kind
  exact decide_eq_false (Nat.not_lt.2 (Nat.le_min.2 ⟨hn, hmax⟩))

end PinMap

/-- Names of pins are letters with a numeral behind them. Zeros in front of a numeral do not count, what
is written is read back, and a numeral that is too large for the table of its pin never has an effect. -/
theorem pin_names_exact :
    (∀ (name : String) (pin : Pin), Pin.ofName? name.toList = some pin ↔
      ∃ digits, name.toList = pin.kind.letter :: digits ∧ Decimal.Numeral digits ∧
        pin.index = min (Nat.ofDigitChars 10 digits 0) (UInt64.size - 1)) ∧
    (∀ (kind : PinKind) (zeros : Nat) (digits : List Char), Decimal.Numeral digits →
      Pin.ofName? (kind.letter :: (List.replicate zeros '0' ++ digits)) =
        Pin.ofName? (kind.letter :: digits)) ∧
    (∀ (kind : PinKind) (n : Nat), n < UInt64.size →
      Pin.ofName? (kind.letter :: Nat.toDigits 10 n) = some ⟨kind, n⟩) ∧
    ∀ (config valid : Config) (m : PinMap) (kind : PinKind) (digits : List Char),
      config.validate = .ok valid → m.Filled config.pins → Decimal.Numeral digits →
      m.capacity kind ≤ Nat.ofDigitChars 10 digits 0 →
      ∃ pin, Pin.ofName? (kind.letter :: digits) = some pin ∧ pin.kind = kind ∧
        m.covers pin = false ∧ ∀ address, m.insert pin address = m := by
  refine ⟨?_, ?_, ?_, ?_⟩
  · intro name pin
    exact Pin.ofName?_eq_some_iff
  · intro kind zeros digits hd
    rw [Pin.ofName?_of_numeral (hd.zeros zeros), Pin.ofName?_of_numeral hd,
      Decimal.ofDigitChars_zeros]
  · intro kind n hn
    have hread := Pin.ofName?_name ⟨kind, n⟩ (Nat.le_pred_of_lt hn)
    rwa [Pin.name, String.toList_ofList] at hread
  · intro config valid m kind digits hvalid hm hd hcapacity
    have hcovers := hm.covers_eq_false hvalid hcapacity
    exact ⟨_, Pin.ofName?_of_numeral hd kind, rfl, hcovers, PinMap.insert_eq_self hcovers⟩

/-- Zeros in front do not move a channel. One more than the largest number is cut down to it, and sixteen
inputs do not reach that far. -/
theorem pin_names_exact_beyond :
    Pin.ofName? "A0007".toList = some ⟨.analog, 7⟩ ∧
      Pin.ofName? "X18446744073709551616".toList = some ⟨.input, 18446744073709551615⟩ ∧
      (PinMap.ofCounts {}).insert ⟨.input, 18446744073709551615⟩ 3 = PinMap.ofCounts {} := by
  obtain ⟨-, hzeros, hwritten, hbeyond⟩ := pin_names_exact
  have hseven := (hzeros .analog 3 ['7'] ⟨by decide, List.all_eq_true.1 rfl⟩).trans
    (hwritten .analog 7 (by decide))
  obtain ⟨pin, hname, -, -, hinsert⟩ := hbeyond {} {} (.ofCounts {}) .input
    "18446744073709551616".toList rfl .empty ⟨by decide, List.all_eq_true.1 rfl⟩ (by decide)
  have hread : Pin.ofName? "X18446744073709551616".toList =
      some ⟨.input, 18446744073709551615⟩ := by decide
  obtain rfl := Option.some.inj (hname.symm.trans hread)
  exact ⟨hseven, hread, hinsert 3⟩

end LadderMachine
