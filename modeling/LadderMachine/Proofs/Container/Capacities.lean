import LadderMachine.Proofs.Container.Sources

/-!
# More room never hurts

A container that is read under some capacities is also read under larger ones. The two readings run side
by side: what has been taken in under the larger capacities `Extends` the other in its pin tables, which
keep pins that are left out of smaller ones, and is the same in everything else.
-/

namespace LadderMachine

def PinCounts.count (c : PinCounts) : PinKind → Nat
  | .input => c.inputs
  | .output => c.outputs
  | .analog => c.analogs

/-- No capacity of the first configuration exceeds that of the second, and their cycle times are the
same. -/
structure Config.Within (small large : Config) : Prop where
  cycleTime_eq : large.cycleTime = small.cycleTime
  slots_le : small.geometry.programCapacity ≤ large.geometry.programCapacity
  cells_le (bank : Bank) : small.geometry.capacity bank ≤ large.geometry.capacity bank
  pins_le (kind : PinKind) : small.pins.count kind ≤ large.pins.count kind

theorem WellFormed.mono {g h : Geometry} {instructions : List Instruction}
    (hw : WellFormed g instructions) (hslots : g.programCapacity ≤ h.programCapacity)
    (hcells : ∀ bank, g.capacity bank ≤ h.capacity bank) : WellFormed h instructions where
  length_le := Nat.le_trans hw.length_le hslots
  endMarkerCount_eq := hw.endMarkerCount_eq
  jumps := hw.jumps
  operands i hi := (hw.operands i hi).mono hcells

theorem PinMap.capacity_ofCounts (c : PinCounts) (kind : PinKind) :
    (PinMap.ofCounts c).capacity kind = c.count kind := by
  cases kind <;> exact Array.size_replicate

/-- The second tables are at least as large and hold the same where the first ones have a place. -/
structure PinMap.Extends (m n : PinMap) : Prop where
  capacity_le (kind : PinKind) : m.capacity kind ≤ n.capacity kind
  get?_eq {kind : PinKind} {index : Nat} (h : index < m.capacity kind) :
    n.get? kind index = m.get? kind index

namespace Container

variable {g h : Geometry} {selected : Bank} {sts : List Statement}

theorem Admitted.mono (ha : Admitted g selected sts)
    (hcells : ∀ bank, g.capacity bank ≤ h.capacity bank) : Admitted h selected sts := by
  induction sts generalizing selected with
  | nil => trivial
  | cons st rest ih =>
    refine ⟨?_, ih ha.2⟩
    cases st with
    | mapping m =>
      obtain ⟨bank, hbank, hlt⟩ := ha.1
      exact ⟨bank, hbank, Nat.lt_of_lt_of_le hlt (hcells bank)⟩
    | nothing | bank | time => trivial

namespace Metadata

/-- Metadata that differ in the size of their pin tables only. -/
structure Extends (s t : Metadata) : Prop where
  bank_eq : t.bank = s.bank
  cycleTime_eq : t.cycleTime = s.cycleTime
  symbols_eq : t.symbols = s.symbols
  pins : s.pins.Extends t.pins

variable {s t : Metadata}

theorem Extends.enter (he : s.Extends t) (m : Mapping) : (s.enter m).Extends (t.enter m) where
  bank_eq := he.bank_eq
  cycleTime_eq := he.cycleTime_eq
  symbols_eq := by
    simp only [Metadata.enter, he.bank_eq, he.symbols_eq]
  pins.capacity_le kind := by
    rw [capacity_pins_enter, capacity_pins_enter]
    exact he.pins.capacity_le kind
  pins.get?_eq := by
    intro kind index hi
    rw [capacity_pins_enter] at hi
    rw [get?_pins_enter hi, get?_pins_enter (Nat.lt_of_lt_of_le hi (he.pins.capacity_le kind)),
      he.pins.get?_eq hi]

theorem Extends.take (he : s.Extends t) (st : Statement) : (s.take st).Extends (t.take st) := by
  cases st with
  | nothing => exact he
  | bank selected => exact ⟨rfl, he.cycleTime_eq, he.symbols_eq, he.pins⟩
  | time given =>
    have htime : given.getD t.cycleTime = given.getD s.cycleTime := by rw [he.cycleTime_eq]
    exact ⟨he.bank_eq, htime, he.symbols_eq, he.pins⟩
  | mapping m => exact he.enter m

theorem Extends.foldl_take (he : s.Extends t) (sts : List Statement) :
    (sts.foldl Metadata.take s).Extends (sts.foldl Metadata.take t) := by
  induction sts generalizing s t with
  | nil => exact he
  | cons st rest ih => exact ih (he.take st)

end Metadata

variable {small large : Config} {c : Contents}

theorem Contents.extends_start (hle : small.Within large) :
    (c.start small).Extends (c.start large) where
  bank_eq := rfl
  cycleTime_eq := congrArg c.time.getD hle.cycleTime_eq
  symbols_eq := rfl
  pins.capacity_le kind := by
    have hpins := hle.pins_le kind
    rwa [← PinMap.capacity_ofCounts, ← PinMap.capacity_ofCounts] at hpins
  pins.get?_eq _ := (Contents.get?_ofCounts _ _ _).trans (Contents.get?_ofCounts _ _ _).symm

theorem Contents.Sound.mono (hs : c.Sound small) (hle : small.Within large) : c.Sound large where
  admitted := hs.admitted.mono hle.cells_le
  wellFormed := hs.wellFormed.mono hle.slots_le hle.cells_le

/-- Under larger capacities the same container is read with the same program, names and cycle time, and
with the same pins wherever the smaller tables have a place for them. -/
theorem read_of_within {text : String} {i : Image} (hle : small.Within large)
    (hi : (read text small).value = .ok i) : ∃ j, (read text large).value = .ok j ∧
      j.program = i.program ∧ j.symbols = i.symbols ∧ j.cycleTime = i.cycleTime ∧
      (∀ kind index, index < small.pins.count kind →
        j.pins.get? kind index = i.pins.get? kind index) ∧
      ∀ kind index address, i.pins.get? kind index = some address →
        j.pins.get? kind index = some address := by
  obtain ⟨c, ht, hs, rfl⟩ := read_eq_ok_iff.1 hi
  have he : (c.metadata small).Extends (c.metadata large) :=
    (Contents.extends_start hle).foldl_take c.statements
  have hcapacity : ∀ kind, (c.metadata small).pins.capacity kind = small.pins.count kind :=
    fun kind => Contents.capacity_pins.trans (PinMap.capacity_ofCounts small.pins kind)
  refine ⟨c.image large, read_eq_ok_iff.2 ⟨c, ht, hs.mono hle, rfl⟩, rfl, he.symbols_eq,
    he.cycleTime_eq, ?_, ?_⟩
  · intro kind index hindex
    rw [← hcapacity] at hindex
    exact he.pins.get?_eq hindex
  · intro kind index address haddress
    exact (he.pins.get?_eq (PinMap.lt_capacity_of_get? haddress)).trans haddress

/-- Three inputs with room for two: the pin that is left out keeps its name, and the others keep their
addresses when there is room for all. -/
theorem read_of_within_more_inputs : ∃ i j,
    (read "$$LDcode\nff0000000000000000000000\n$$bits\nX0,1\nX1,3\nX2,0\n"
        { geometry := ⟨4, 1, 1⟩, pins := ⟨2, 1, 1⟩ }).value = .ok i ∧
      (read "$$LDcode\nff0000000000000000000000\n$$bits\nX0,1\nX1,3\nX2,0\n" {}).value = .ok j ∧
      i.pins.get? .input 2 = none ∧ j.symbols = i.symbols ∧ i.symbols.get? .bit "X2" = some 0 ∧
      j.pins.get? .input 1 = some 3 := by
  have hle : Config.Within { geometry := ⟨4, 1, 1⟩, pins := ⟨2, 1, 1⟩ } {} :=
    ⟨rfl, by decide, fun bank => by cases bank <;> decide, fun kind => by cases kind <;> decide⟩
  have hi : (read "$$LDcode\nff0000000000000000000000\n$$bits\nX0,1\nX1,3\nX2,0\n"
      { geometry := ⟨4, 1, 1⟩, pins := ⟨2, 1, 1⟩ }).value =
        .ok ⟨⟨#[⟨255, 0, 0, 0, 0⟩]⟩, ⟨#[some 1, some 3], #[none], #[none]⟩,
          ((({} : Symbols).insert .bit "X0" 1).insert .bit "X1" 3).insert .bit "X2" 0, 10000⟩ := by
    rfl
  obtain ⟨j, hj, -, hsymbols, -, hpins, -⟩ := read_of_within hle hi
  exact ⟨_, j, hi, hj, rfl, hsymbols, by decide, hpins .input 1 (by decide)⟩

end Container

end LadderMachine
