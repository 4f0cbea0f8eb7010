import LadderMachine.Simulator

/-!
# Access by name

Bits and integers are read and written by name in the same way. If all names of a bank stand for
cells, whether an access succeeds depends on the name alone, and a write changes one cell.
-/

namespace LadderMachine

/-- The memories have the same cells, except perhaps the one at an address of a bank. -/
structure Memory.SameBut (bank : Bank) (address : Nat) (m m' : Memory) : Prop where
  bit?_eq {n : Nat} (h : (Bank.bit, n) ≠ (bank, address)) : m'.bit? n = m.bit? n
  integer?_eq {n : Nat} (h : (Bank.int, n) ≠ (bank, address)) : m'.integer? n = m.integer? n

namespace Simulator

variable {σ α : Type} {bank : Bank} {cell? : Memory → Nat → Option α}
  {set? : Memory → Nat → α → Option Memory}

def readCell (bank : Bank) (cell? : Memory → Nat → Option α) (s : Simulator σ) (name : String) :
    Except AccessError α :=
  match s.resolve bank name with
  | .error e => .error e
  | .ok address =>
    match cell? s.memory address with
    | some value => .ok value
    | none => .error (.memory (s.memory.outside bank address))

def writeCell (bank : Bank) (set? : Memory → Nat → α → Option Memory) (s : Simulator σ)
    (name : String) (value : α) : Except AccessError (Simulator σ) :=
  match s.resolve bank name with
  | .error e => .error e
  | .ok address =>
    match set? s.memory address value with
    | some memory => .ok (s.withMemory memory)
    | none => .error (.memory (s.memory.outside bank address))

theorem readBit_eq (s : Simulator σ) : s.readBit = s.readCell .bit Memory.bit? := by
  funext name
  cases h : s.resolve .bit name with
  | error e => simp only [readBit, readCell, h]
  | ok address =>
    simp only [readBit, readCell, h]
    cases s.memory.bit? address <;> rfl

theorem readInteger_eq (s : Simulator σ) : s.readInteger = s.readCell .int Memory.integer? := by
  funext name
  cases h : s.resolve .int name with
  | error e => simp only [readInteger, readCell, h]
  | ok address =>
    simp only [readInteger, readCell, h]
    cases s.memory.integer? address <;> rfl

theorem writeBit_eq (s : Simulator σ) : s.writeBit = s.writeCell .bit Memory.setBit? := by
  funext name value
  cases h : s.resolve .bit name with
  | error e => simp only [writeBit, writeCell, h]
  | ok address =>
    simp only [writeBit, writeCell, Memory.writeBit, h]
    cases s.memory.setBit? address value <;> rfl

theorem writeInteger_eq (s : Simulator σ) :
    s.writeInteger = s.writeCell .int Memory.setInteger? := by
  funext name value
  cases h : s.resolve .int name with
  | error e => simp only [writeInteger, writeCell, h]
  | ok address =>
    simp only [writeInteger, writeCell, Memory.writeInteger, h]
    cases s.memory.setInteger? address value <;> rfl

/-- What a host can rely on when it reads and writes the cells of a bank by name. -/
structure Access (s : Simulator σ) (bank : Bank) (cell? : Memory → Nat → Option α)
    (read : String → Except AccessError α)
    (write : String → α → Except AccessError (Simulator σ)) : Prop where
  read_iff (name : String) :
    (∃ value, read name = .ok value) ↔ ∃ address, s.symbols.get? bank name = some address
  write_iff (name : String) (value : α) :
    (∃ s', write name value = .ok s') ↔ ∃ address, s.symbols.get? bank name = some address
  read_ne (name : String) (e : AddressError) : read name ≠ .error (.memory e)
  write_ne (name : String) (value : α) (e : AddressError) : write name value ≠ .error (.memory e)
  of_read {name : String} {value : α} (h : read name = .ok value) :
    ∃ address, s.symbols.get? bank name = some address ∧ cell? s.memory address = some value
  of_write {name : String} {value : α} {s' : Simulator σ} (h : write name value = .ok s') :
    ∃ address m, s.symbols.get? bank name = some address ∧ s' = s.withMemory m ∧
      cell? m address = some value ∧ s.memory.SameBut bank address m

variable {s : Simulator σ} {name : String} {address : Nat}

theorem readCell_of_none (h : s.symbols.get? bank name = none) :
    s.readCell bank cell? name = .error (.unknownVariable bank name) := by
  rw [readCell, resolve, h]

theorem writeCell_of_none (h : s.symbols.get? bank name = none) (value : α) :
    s.writeCell bank set? name value = .error (.unknownVariable bank name) := by
  rw [writeCell, resolve, h]

theorem readCell_of_some (h : s.symbols.get? bank name = some address) {value : α}
    (hv : cell? s.memory address = some value) : s.readCell bank cell? name = .ok value := by
  simp only [readCell, resolve, h, hv]

theorem writeCell_of_some (h : s.symbols.get? bank name = some address) {value : α} {m : Memory}
    (hm : set? s.memory address value = some m) :
    s.writeCell bank set? name value = .ok (s.withMemory m) := by
  simp only [writeCell, resolve, h, hm]

theorem exists_of_readCell {value : α} (h : s.readCell bank cell? name = .ok value) :
    ∃ address, s.symbols.get? bank name = some address ∧ cell? s.memory address = some value := by
  cases ha : s.symbols.get? bank name with
  | none =>
    rw [readCell_of_none ha] at h
    cases h
  | some address =>
    cases hv : cell? s.memory address with
    | none => simp only [readCell, resolve, ha, hv, reduceCtorEq] at h
    | some v =>
      rw [readCell_of_some ha hv] at h
      exact ⟨address, rfl, hv.trans (congrArg some (Except.ok.inj h))⟩

theorem exists_of_writeCell {value : α} {s' : Simulator σ}
    (h : s.writeCell bank set? name value = .ok s') :
    ∃ address m, s.symbols.get? bank name = some address ∧ set? s.memory address value = some m ∧
      s' = s.withMemory m := by
  cases ha : s.symbols.get? bank name with
  | none =>
    rw [writeCell_of_none ha] at h
    cases h
  | some address =>
    cases hm : set? s.memory address value with
    | none => simp only [writeCell, resolve, ha, hm, reduceCtorEq] at h
    | some m =>
      rw [writeCell_of_some ha hm] at h
      exact ⟨address, m, rfl, hm, (Except.ok.inj h).symm⟩

/-- Names whose addresses are cells give access, if cells can be read and set one by one. -/
theorem access_cells
    (hread : ∀ {name address}, s.symbols.get? bank name = some address →
      ∃ value, cell? s.memory address = some value)
    (hset : ∀ {name address}, s.symbols.get? bank name = some address → ∀ value,
      ∃ m, set? s.memory address value = some m ∧ cell? m address = some value ∧
        s.memory.SameBut bank address m) :
    s.Access bank cell? (s.readCell bank cell?) (s.writeCell bank set?) := by
  have hr (name : String) : s.symbols.get? bank name = none ∧
        s.readCell bank cell? name = .error (.unknownVariable bank name) ∨
      (∃ address, s.symbols.get? bank name = some address) ∧
        ∃ value, s.readCell bank cell? name = .ok value := by
    cases ha : s.symbols.get? bank name with
    | none => exact .inl ⟨rfl, readCell_of_none ha⟩
    | some address =>
      obtain ⟨value, hv⟩ := hread ha
      exact .inr ⟨⟨address, rfl⟩, value, readCell_of_some ha hv⟩
  have hw (name : String) (value : α) : s.symbols.get? bank name = none ∧
        s.writeCell bank set? name value = .error (.unknownVariable bank name) ∨
      (∃ address, s.symbols.get? bank name = some address) ∧
        ∃ s', s.writeCell bank set? name value = .ok s' := by
    cases ha : s.symbols.get? bank name with
    | none => exact .inl ⟨rfl, writeCell_of_none ha value⟩
    | some address =>
      obtain ⟨m, hm, -⟩ := hset ha value
      exact .inr ⟨⟨address, rfl⟩, _, writeCell_of_some ha hm⟩
  refine ⟨fun name => ?_, fun name value => ?_, fun name e => ?_, fun name value e => ?_,
    exists_of_readCell, fun h => ?_⟩
  · rcases hr name with ⟨ha, he⟩ | ⟨⟨address, ha⟩, value, he⟩ <;> simp [ha, he]
  · rcases hw name value with ⟨ha, he⟩ | ⟨⟨address, ha⟩, s', he⟩ <;> simp [ha, he]
  · rcases hr name with ⟨-, he⟩ | ⟨-, value, he⟩ <;> simp [he]
  · rcases hw name value with ⟨-, he⟩ | ⟨-, s', he⟩ <;> simp [he]
  · obtain ⟨address, m, ha, hm, rfl⟩ := exists_of_writeCell h
    obtain ⟨m', hm', hv, hsame⟩ := hset ha _
    obtain rfl : m' = m := Option.some.inj (hm'.symm.trans hm)
    exact ⟨address, m', ha, rfl, hv, hsame⟩

theorem access_bits (h : ∀ {name address}, s.symbols.get? .bit name = some address →
      address < s.memory.capacity .bit) :
    s.Access .bit Memory.bit? s.readBit s.writeBit := by
  rw [readBit_eq, writeBit_eq]
  refine access_cells (fun ha => ⟨_, Array.getElem?_eq_getElem (h ha)⟩) ?_
  intro name address ha value
  obtain ⟨m, hm⟩ := Option.isSome_iff_exists.1
    ((s.memory.setBit?_isSome_iff address value).2 (h ha))
  refine ⟨m, hm, ?_, fun {n} hn => ?_, fun _ => ?_⟩
  · rw [Memory.bit?_setBit? hm, if_pos rfl]
  · have hne : address ≠ n := fun he => hn (by rw [he])
    rw [Memory.bit?_setBit? hm, if_neg hne]
  · rw [Memory.integer?, Memory.integers_setBit? hm, Memory.integer?]

theorem access_integers (h : ∀ {name address}, s.symbols.get? .int name = some address →
      address < s.memory.capacity .int) :
    s.Access .int Memory.integer? s.readInteger s.writeInteger := by
  rw [readInteger_eq, writeInteger_eq]
  refine access_cells (fun ha => ⟨_, Array.getElem?_eq_getElem (h ha)⟩) ?_
  intro name address ha value
  obtain ⟨m, hm⟩ := Option.isSome_iff_exists.1
    ((s.memory.setInteger?_isSome_iff address value).2 (h ha))
  refine ⟨m, hm, ?_, fun _ => ?_, fun {n} hn => ?_⟩
  · rw [Memory.integer?_setInteger? hm, if_pos rfl]
  · rw [Memory.bit?, Memory.bits_setInteger? hm, Memory.bit?]
  · have hne : address ≠ n := fun he => hn (by rw [he])
    rw [Memory.integer?_setInteger? hm, if_neg hne]

end Simulator

end LadderMachine
