import LadderMachine.Memory
import LadderMachine.Proofs.Listing.Words
import LadderMachine.Proofs.Text.Lines

/-!
# What a dump tells

A dump has a line for each cell that is not at rest: first the set bits, then the integers other than
zero, each bank by increasing address (`Lists`). The cell can be told from its line and the lines from
the dump. So memories of the same capacities have the same dump only if they agree in every cell.
-/

namespace LadderMachine

namespace Memory

/-- A cell that is not at rest: a set bit, or an integer other than zero. -/
inductive Entry
  | bit (address : Nat)
  | integer (address : Nat) (value : Int32)

namespace Entry

variable {d e : Entry}

def line : Entry → String
  | bit address => bitLine address
  | integer address value => integerLine address value

/-- The order of a dump. -/
inductive Before : Entry → Entry → Prop
  | bits {a b : Nat} (h : a < b) : Before (bit a) (bit b)
  | banks {a b : Nat} {value : Int32} : Before (bit a) (integer b value)
  | integers {a b : Nat} {v w : Int32} (h : a < b) : Before (integer a v) (integer b w)

/-- The words of a line. Two of them are empty for a bit, whose line is filled up to the equals sign. -/
def words : Entry → List String
  | bit address => ["bits[" ++ Hexadecimal.padded 3 address ++ "]", "", "", "=", "1"]
  | integer address value =>
    ["int16s[" ++ Hexadecimal.padded 3 address ++ "]", "=", integerText value.toInt]

theorem toList_line (e : Entry) :
    e.line.toList = [' '].intercalate (e.words.map String.toList) := by
  cases e <;> simp [line, bitLine, integerLine, words]

theorem solid_words (e : Entry) : ∀ w ∈ e.words, Solid w := by
  cases e <;> simp +decide [words]

theorem words_ne_nil (e : Entry) : e.words ≠ [] := by
  cases e <;> simp [words]

theorem words_inj : d.words = e.words ↔ d = e := by
  cases d <;> cases e <;> simp [words, Int32.toInt_inj]

theorem line_inj (h : d.line = e.line) : d = e := by
  have hrow := congrArg String.toList h
  rw [toList_line, toList_line] at hrow
  exact words_inj.1 (eq_of_intercalate_eq d.solid_words e.solid_words d.words_ne_nil e.words_ne_nil hrow)

theorem not_mem_line (e : Entry) {c : Char} (hb : Text.isBlank c = true) (hc : c ≠ ' ') :
    c ∉ e.line.toList := by
  intro h
  rw [toList_line] at h
  exact hc (eq_space_of_mem_intercalate e.solid_words h hb)

def ofBit? (cell : Bool × Nat) : Option Entry := if cell.1 then some (bit cell.2) else none

def ofInteger? (cell : Int32 × Nat) : Option Entry :=
  if cell.1 ≠ 0 then some (integer cell.2 cell.1) else none

theorem ofBit?_eq_some_iff {cell : Bool × Nat} :
    ofBit? cell = some e ↔ cell.1 = true ∧ bit cell.2 = e := by
  rw [ofBit?, Option.ite_none_right_eq_some, Option.some_inj]

theorem ofInteger?_eq_some_iff {cell : Int32 × Nat} :
    ofInteger? cell = some e ↔ cell.1 ≠ 0 ∧ integer cell.2 cell.1 = e := by
  rw [ofInteger?, Option.ite_none_right_eq_some, Option.some_inj]

end Entry

/-- The entries of a dump: all cells that are not at rest, each of them once, in the order of a dump. -/
structure Lists (m : Memory) (es : List Entry) : Prop where
  sorted : es.Pairwise Entry.Before
  bit_mem (address : Nat) : .bit address ∈ es ↔ m.bit? address = some true
  integer_mem (address : Nat) (value : Int32) :
    .integer address value ∈ es ↔ m.integer? address = some value ∧ value ≠ 0

def entries (m : Memory) : List Entry :=
  m.bits.toList.zipIdx.filterMap Entry.ofBit? ++
    m.integers.toList.zipIdx.filterMap Entry.ofInteger?

theorem dumpLines_eq (m : Memory) : m.dumpLines = m.entries.map Entry.line := by
  rw [dumpLines, entries, List.map_append, List.map_filterMap, List.map_filterMap]
  congr 2
  · funext c
    rw [Entry.ofBit?]
    split <;> rfl
  · funext c
    rw [Entry.ofInteger?]
    split <;> rfl

/-- No character of a line ends it, so the lines of a dump are those that were put together. -/
theorem lines_dump (m : Memory) :
    Text.lines m.dump.toList = m.entries.map fun e => e.line.toList := by
  rw [dump, dumpLines_eq, Text.toList_join_feeds, List.map_map, Text.lines_unlines]
  · rfl
  · intro l hl
    obtain ⟨e, -, rfl⟩ := List.mem_map.1 hl
    exact e.not_mem_line (by decide) (by decide)
  · intro l hl hlast
    obtain ⟨e, -, rfl⟩ := List.mem_map.1 hl
    exact e.not_mem_line (by decide) (by decide) (List.mem_of_getLast? hlast)

theorem pairwise_zipIdx {α : Type} (cells : List α) :
    cells.zipIdx.Pairwise fun c d => c.2 < d.2 := by
  have hsorted : (cells.zipIdx.map Prod.snd).Pairwise (· < ·) := by
    rw [List.zipIdx_map_snd]
    exact List.pairwise_lt_range'
  exact List.pairwise_map.1 hsorted

theorem lists_entries (m : Memory) : m.Lists m.entries where
  sorted := by
    rw [entries, List.pairwise_append]
    refine ⟨?_, ?_, ?_⟩
    · refine (pairwise_zipIdx m.bits.toList).filterMap Entry.ofBit? ?_
      intro c d hcd x hx y hy
      obtain ⟨-, rfl⟩ := Entry.ofBit?_eq_some_iff.1 hx
      obtain ⟨-, rfl⟩ := Entry.ofBit?_eq_some_iff.1 hy
      exact .bits hcd
    · refine (pairwise_zipIdx m.integers.toList).filterMap Entry.ofInteger? ?_
      intro c d hcd x hx y hy
      obtain ⟨-, rfl⟩ := Entry.ofInteger?_eq_some_iff.1 hx
      obtain ⟨-, rfl⟩ := Entry.ofInteger?_eq_some_iff.1 hy
      exact .integers hcd
    · intro x hx y hy
      obtain ⟨c, -, hx⟩ := List.mem_filterMap.1 hx
      obtain ⟨d, -, hy⟩ := List.mem_filterMap.1 hy
      obtain ⟨-, rfl⟩ := Entry.ofBit?_eq_some_iff.1 hx
      obtain ⟨-, rfl⟩ := Entry.ofInteger?_eq_some_iff.1 hy
      exact .banks
  bit_mem address := by
    simp [entries, List.mem_zipIdx_iff_getElem?, bit?, Entry.ofBit?_eq_some_iff,
      Entry.ofInteger?_eq_some_iff]
  integer_mem address value := by
    simp [entries, List.mem_zipIdx_iff_getElem?, integer?, Entry.ofBit?_eq_some_iff,
      Entry.ofInteger?_eq_some_iff]

/-- Answers agree if none of them is there without the other, and in every value other than that of a
cell at rest. -/
theorem eq_of_forall_ne {α : Type} [DecidableEq α] {x y : Option α} (rest : α)
    (hnone : x = none ↔ y = none) (h : ∀ v, v ≠ rest → (x = some v ↔ y = some v)) : x = y := by
  cases x with
  | none => exact (hnone.1 rfl).symm
  | some v =>
    cases y with
    | none => exact hnone.2 rfl
    | some w =>
      by_cases hv : v = rest
      · by_cases hw : w = rest
        · rw [hv, hw]
        · exact (h w hw).2 rfl
      · exact ((h v hv).1 rfl).symm

section Faithful

variable {m n : Memory}

theorem bit?_eq_none_iff {address : Nat} : m.bit? address = none ↔ m.capacity .bit ≤ address := by
  simp [bit?, capacity]

theorem integer?_eq_none_iff {address : Nat} :
    m.integer? address = none ↔ m.capacity .int ≤ address := by
  simp [integer?, capacity]

theorem cells_eq_of_lists {es : List Entry} (hm : m.Lists es) (hn : n.Lists es)
    (hcapacity : ∀ bank, m.capacity bank = n.capacity bank) (address : Nat) :
    m.bit? address = n.bit? address ∧ m.integer? address = n.integer? address := by
  constructor
  · refine eq_of_forall_ne false ?_ ?_
    · rw [bit?_eq_none_iff, bit?_eq_none_iff, hcapacity]
    · intro v hv
      rw [Bool.eq_true_of_not_eq_false hv, ← hm.bit_mem, ← hn.bit_mem]
  · refine eq_of_forall_ne 0 ?_ ?_
    · rw [integer?_eq_none_iff, integer?_eq_none_iff, hcapacity]
    · intro v hv
      have hmem := (hm.integer_mem address v).symm.trans (hn.integer_mem address v)
      rwa [and_iff_left hv, and_iff_left hv] at hmem

theorem eq_of_cells_eq (h : ∀ address,
    m.bit? address = n.bit? address ∧ m.integer? address = n.integer? address) : m = n := by
  have hbits : m.bits = n.bits := Array.ext_getElem? fun address => (h address).1
  have hintegers : m.integers = n.integers := Array.ext_getElem? fun address => (h address).2
  exact congrArg₂ Memory.mk hbits hintegers

/-- Memories of the same capacities have the same dump exactly if they agree in every cell. The lines of
a dump are those of the cells that are not at rest, in order. -/
theorem dump_faithful (m n : Memory) (h : ∀ bank, m.capacity bank = n.capacity bank) :
    (m.dump = n.dump ↔
        ∀ address, m.bit? address = n.bit? address ∧ m.integer? address = n.integer? address) ∧
      ∃ es, m.Lists es ∧ Text.lines m.dump.toList = es.map fun e => e.line.toList := by
  refine ⟨⟨?_, ?_⟩, m.entries, lists_entries m, lines_dump m⟩
  · intro hdump
    have hlines : (m.entries.map fun e => e.line.toList) = n.entries.map fun e => e.line.toList := by
      rw [← lines_dump, hdump, lines_dump]
    have hentries : m.entries = n.entries :=
      (List.map_inj_right fun _ _ hl => Entry.line_inj (String.toList_inj.1 hl)).1 hlines
    exact cells_eq_of_lists (hentries ▸ lists_entries m) (lists_entries n) h
  · intro hcells
    rw [eq_of_cells_eq hcells]

/-- A sign in one cell shows. -/
theorem dump_faithful_sign :
    (⟨#[false, true], #[0, -5]⟩ : Memory).dump ≠ (⟨#[false, true], #[0, 5]⟩ : Memory).dump ∧
      (⟨#[false, true], #[0, -5]⟩ : Memory).dump = "bits[001]   = 1\nint16s[001] = -5\n" := by
  obtain ⟨hsame, -⟩ := dump_faithful ⟨#[false, true], #[0, -5]⟩ ⟨#[false, true], #[0, 5]⟩
    fun bank => by cases bank <;> rfl
  constructor
  · intro hdump
    exact absurd (hsame.1 hdump 1).2 (by decide)
  · decide

end Faithful

end Memory

end LadderMachine
