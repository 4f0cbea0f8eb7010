import Mathlib.Data.List.Perm.Basic
import LadderMachine.Pins
import LadderMachine.Symbols

/-!
# Look-ups in tables of names and pins

The entries of a table of names are its look-ups (`mem_entries_iff`), since no name stands there
twice. So tables with the same look-ups are equal, and likewise pin tables of the same capacities.
Several names can stand for one pin; `pinAddress?` takes the last of them.
-/

namespace LadderMachine

namespace SymbolTable

theorem mem_of_find? {name : String} {address : Nat} {es : List (String × Nat)}
    (h : find? name es = some address) : (name, address) ∈ es := by
  induction es with
  | nil => exact absurd h (by simp [find?])
  | cons e rest ih =>
    unfold find? at h
    split_ifs at h with hn
    · cases h
      simp [← hn]
    · exact List.mem_cons_of_mem _ (ih h)

theorem find?_of_mem {name : String} {address : Nat} {es : List (String × Nat)}
    (hs : es.Pairwise fun a b => a.1 < b.1) (h : (name, address) ∈ es) :
    find? name es = some address := by
  induction hs with
  | nil => exact absurd h (by simp)
  | @cons e rest hlt _ ih =>
    rcases List.mem_cons.1 h with rfl | h
    · simp [find?]
    · have hne : e.1 ≠ name := by
        intro he
        exact String.lt_irrefl _ (he ▸ hlt _ h)
      rw [find?, if_neg hne]
      exact ih h

theorem mem_entries_iff {t : SymbolTable} {name : String} {address : Nat} :
    (name, address) ∈ t.entries ↔ t.get? name = some address :=
  ⟨find?_of_mem t.sorted, mem_of_find?⟩

theorem nodup_entries (t : SymbolTable) : t.entries.Nodup := by
  refine t.sorted.imp ?_
  rintro a b hlt rfl
  exact String.lt_irrefl _ hlt

theorem ext_get? {t u : SymbolTable} (h : ∀ name, t.get? name = u.get? name) : t = u := by
  have hmem : ∀ e, e ∈ t.entries ↔ e ∈ u.entries := by
    rintro ⟨name, address⟩
    rw [mem_entries_iff, mem_entries_iff, h]
  have hperm := (List.perm_ext_iff_of_nodup t.nodup_entries u.nodup_entries).2 hmem
  have he : t.entries = u.entries := by
    refine hperm.eq_of_pairwise ?_ t.sorted u.sorted
    intro a b _ _ hab hba
    exact absurd (String.lt_trans hab hba) (String.lt_irrefl _)
  obtain ⟨es, hs⟩ := t
  obtain ⟨es', hs'⟩ := u
  subst he
  rfl

/-- A name has one entry, so the last one that matches is the one looked up. -/
theorem getLast?_filter_entries (t : SymbolTable) (name : String) :
    (t.entries.filter fun e => e.1 = name).getLast?.map Prod.snd = t.get? name := by
  cases hl : (t.entries.filter fun e => e.1 = name).getLast? with
  | some e =>
    obtain ⟨he, hn⟩ := List.mem_filter.1 (List.mem_of_getLast? hl)
    obtain ⟨other, address⟩ := e
    have hname : other = name := of_decide_eq_true hn
    exact (mem_entries_iff.1 (hname ▸ he)).symm
  | none =>
    have hnil := List.getLast?_eq_none_iff.1 hl
    cases hg : t.get? name with
    | none => rfl
    | some address =>
      have hm : (name, address) ∈ t.entries.filter fun e => e.1 = name :=
        List.mem_filter.2 ⟨mem_entries_iff.2 hg, by simp⟩
      exact absurd hm (by simp [hnil])

end SymbolTable

namespace Symbols

theorem mem_entries_iff {s : Symbols} {bank : Bank} {name : String} {address : Nat} :
    (name, address) ∈ s.entries bank ↔ s.get? bank name = some address :=
  SymbolTable.mem_entries_iff

theorem ext_get? {s t : Symbols} (h : ∀ bank name, s.get? bank name = t.get? bank name) :
    s = t := by
  obtain ⟨bits, integers⟩ := s
  obtain ⟨bits', integers'⟩ := t
  have hb : bits = bits' := SymbolTable.ext_get? (h .bit)
  have hi : integers = integers' := SymbolTable.ext_get? (h .int)
  rw [hb, hi]

/-- Address of the last name, in the order of the names of its bank, that stands for the pin. -/
def pinAddress? (s : Symbols) (pin : Pin) : Option Nat :=
  ((s.entries pin.kind.bank).filter fun e => Pin.ofName? e.1.toList = some pin).getLast?.map Prod.snd

end Symbols

namespace PinMap

theorem table_ext {m n : PinMap} {kind : PinKind} (hc : m.capacity kind = n.capacity kind)
    (h : ∀ index < m.capacity kind, m.get? kind index = n.get? kind index) :
    m.table kind = n.table kind := by
  refine Array.ext hc ?_
  intro index h₁ h₂
  have hg := h index h₁
  rwa [get?, get?, Array.getElem?_eq_getElem h₁, Array.getElem?_eq_getElem h₂] at hg

/-- Pin tables with the same capacities and the same look-ups are equal. -/
theorem ext_get? {m n : PinMap} (hc : ∀ kind, m.capacity kind = n.capacity kind)
    (h : ∀ kind, ∀ index < m.capacity kind, m.get? kind index = n.get? kind index) : m = n := by
  obtain ⟨inputs, outputs, analogs⟩ := m
  obtain ⟨inputs', outputs', analogs'⟩ := n
  have hi : inputs = inputs' := table_ext (hc .input) (h .input)
  have ho : outputs = outputs' := table_ext (hc .output) (h .output)
  have ha : analogs = analogs' := table_ext (hc .analog) (h .analog)
  rw [hi, ho, ha]

end PinMap

end LadderMachine
