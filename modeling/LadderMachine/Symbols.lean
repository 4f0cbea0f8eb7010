import LadderMachine.Bank

/-!
# Named variables

Each bank has a table from names to addresses. A table lists its entries in the order of the code
points of their names, and no name twice, so two tables with the same look-ups are equal.
-/

namespace LadderMachine

structure SymbolTable where
  entries : List (String × Nat) := []
  sorted : entries.Pairwise fun a b => a.1 < b.1 := by exact .nil
deriving DecidableEq

namespace SymbolTable

/-- Puts an entry in its place; an entry with the same name gives way. -/
def insertEntry (name : String) (address : Nat) : List (String × Nat) → List (String × Nat)
  | [] => [(name, address)]
  | e :: rest =>
    if name < e.1 then (name, address) :: e :: rest
    else if e.1 < name then e :: insertEntry name address rest
    else (name, address) :: rest

theorem eq_of_not_lt {a b : String} (h₁ : ¬ a < b) (h₂ : ¬ b < a) : a = b :=
  String.le_antisymm (String.not_lt.1 h₂) (String.not_lt.1 h₁)

theorem mem_insertEntry {name : String} {address : Nat} {es : List (String × Nat)}
    {e : String × Nat} (h : e ∈ insertEntry name address es) : e = (name, address) ∨ e ∈ es := by
  induction es with
  | nil => simpa [insertEntry] using h
  | cons d rest ih =>
    unfold insertEntry at h
    split at h
    · simpa using h
    · split at h
      · rcases List.mem_cons.1 h with rfl | h
        · simp
        · rcases ih h with rfl | h <;> simp [*]
      · rcases List.mem_cons.1 h with rfl | h <;> simp [*]

theorem sorted_insertEntry (name : String) (address : Nat) (es : List (String × Nat))
    (h : es.Pairwise fun a b => a.1 < b.1) :
    (insertEntry name address es).Pairwise fun a b => a.1 < b.1 := by
  induction es with
  | nil => simp [insertEntry]
  | cons d rest ih =>
    have hd := List.pairwise_cons.1 h
    unfold insertEntry
    split
    · next hlt =>
      refine List.pairwise_cons.2 ⟨fun e he => ?_, h⟩
      rcases List.mem_cons.1 he with rfl | he
      · exact hlt
      · exact String.lt_trans hlt (hd.1 e he)
    · split
      · next hlt =>
        refine List.pairwise_cons.2 ⟨fun e he => ?_, ih hd.2⟩
        rcases mem_insertEntry he with rfl | he
        · exact hlt
        · exact hd.1 e he
      · next h₁ h₂ =>
        have : name = d.1 := eq_of_not_lt h₁ h₂
        exact List.pairwise_cons.2 ⟨fun e he => this ▸ hd.1 e he, hd.2⟩

def insert (t : SymbolTable) (name : String) (address : Nat) : SymbolTable :=
  ⟨insertEntry name address t.entries, sorted_insertEntry name address t.entries t.sorted⟩

def find? (name : String) : List (String × Nat) → Option Nat
  | [] => none
  | e :: rest => if e.1 = name then some e.2 else find? name rest

def get? (t : SymbolTable) (name : String) : Option Nat := find? name t.entries

def size (t : SymbolTable) : Nat := t.entries.length

theorem find?_insertEntry (name other : String) (address : Nat) (es : List (String × Nat)) :
    find? other (insertEntry name address es) =
      if name = other then some address else find? other es := by
  induction es with
  | nil => rfl
  | cons d rest ih =>
    unfold insertEntry
    split
    · rfl
    · next h₁ =>
      split
      · next h₂ =>
        simp only [find?, ih]
        by_cases hn : name = other
        · have : d.1 ≠ other := fun h => String.lt_irrefl _ (h ▸ hn ▸ h₂)
          simp [hn, this]
        · simp [hn]
      · next h₂ =>
        have : name = d.1 := eq_of_not_lt h₁ h₂
        simp only [find?, this]
        split <;> rfl

/-- A look-up finds the address that was put in last. -/
theorem get?_insert (t : SymbolTable) (name other : String) (address : Nat) :
    (t.insert name address).get? other = if name = other then some address else t.get? other :=
  find?_insertEntry name other address t.entries

end SymbolTable

structure Symbols where
  bits : SymbolTable := {}
  integers : SymbolTable := {}
deriving DecidableEq

namespace Symbols

def table (s : Symbols) : Bank → SymbolTable
  | .bit => s.bits
  | .int => s.integers

def insert (s : Symbols) (bank : Bank) (name : String) (address : Nat) : Symbols :=
  match bank with
  | .bit => { s with bits := s.bits.insert name address }
  | .int => { s with integers := s.integers.insert name address }

def get? (s : Symbols) (bank : Bank) (name : String) : Option Nat := (s.table bank).get? name

def entries (s : Symbols) (bank : Bank) : List (String × Nat) := (s.table bank).entries

def size (s : Symbols) (bank : Bank) : Nat := (s.table bank).size

def isEmpty (s : Symbols) : Bool := s.bits.size == 0 && s.integers.size == 0

theorem get?_insert (s : Symbols) (bank other : Bank) (name asked : String) (address : Nat) :
    (s.insert bank name address).get? other asked =
      if bank = other ∧ name = asked then some address else s.get? other asked := by
  cases bank <;> cases other <;> simp [insert, get?, table, SymbolTable.get?_insert]

end Symbols

end LadderMachine
