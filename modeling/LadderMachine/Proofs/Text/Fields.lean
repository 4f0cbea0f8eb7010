import Mathlib.Data.List.TakeWhile
import LadderMachine.Text.Blank
import LadderMachine.Text.Decimal

/-!
# Trimmed fields and numbers

Trimming removes the blank characters at both ends of a text and nothing else, so a text is `Trimmed`
exactly if trimming leaves it as it is. `Decimal.Spells` is the form of an unsigned 64-bit decimal,
and `word?_eq_some_iff` says that no other text is read as a number.
-/

namespace LadderMachine

namespace Text

variable {cs : List Char} {c : Char}

/-- A text without blank characters at its ends. -/
structure Trimmed (cs : List Char) : Prop where
  head : ∀ c ∈ cs.head?, isBlank c = false
  last : ∀ c ∈ cs.getLast?, isBlank c = false

theorem toNat_of_isBlank (h : isBlank c = true) : c.toNat ≤ 32 ∨ 0x85 ≤ c.toNat := by
  simp only [isBlank, Bool.or_eq_true, Bool.and_eq_true, decide_eq_true_eq, beq_iff_eq] at h
  omega

theorem trim_prefix_trimStart (cs : List Char) : trim cs <+: trimStart cs := by
  have h := List.reverse_prefix.2 ((trimStart cs).reverse.dropWhile_suffix isBlank)
  rwa [List.reverse_reverse] at h

theorem mem_of_mem_trim (h : c ∈ trim cs) : c ∈ cs :=
  (List.dropWhile_suffix isBlank).subset ((trim_prefix_trimStart cs).subset h)

theorem mem_trimStart (h : c ∈ cs) (hb : isBlank c = false) : c ∈ trimStart cs := by
  rw [← List.takeWhile_append_dropWhile (p := isBlank) (l := cs)] at h
  rcases List.mem_append.1 h with h | h
  · exact absurd (List.mem_takeWhile_imp h) (by simp [hb])
  · exact h

theorem mem_trim (h : c ∈ cs) (hb : isBlank c = false) : c ∈ trim cs :=
  List.mem_reverse.2 (mem_trimStart (List.mem_reverse.2 (mem_trimStart h hb)) hb)

theorem trim_eq_nil_iff : trim cs = [] ↔ ∀ c ∈ cs, isBlank c = true := by
  rw [trim, trimEnd, List.reverse_eq_nil_iff, List.dropWhile_eq_nil_iff]
  constructor
  · intro h c hc
    by_contra hb
    exact hb (h c (List.mem_reverse.2 (mem_trimStart hc (Bool.eq_false_iff.2 hb))))
  · intro h c hc
    exact h c ((List.dropWhile_suffix isBlank).subset (List.mem_reverse.1 hc))

theorem isBlank_of_mem_head? (h : c ∈ (cs.dropWhile isBlank).head?) : isBlank c = false := by
  have hne : cs.dropWhile isBlank ≠ [] := by
    rintro he
    simp [he] at h
  rw [List.head?_eq_some_head hne, Option.mem_some_iff] at h
  exact h ▸ List.head_dropWhile_not isBlank hne

theorem trimmed_trim (cs : List Char) : Trimmed (trim cs) := by
  constructor
  · intro c hc
    obtain ⟨rest, hrest⟩ := trim_prefix_trimStart cs
    have hs : c ∈ (trimStart cs).head? := by
      rw [← hrest, List.head?_append, hc]
      rfl
    exact isBlank_of_mem_head? hs
  · intro c hc
    rw [trim, trimEnd, List.getLast?_reverse] at hc
    exact isBlank_of_mem_head? hc

theorem Trimmed.trim_eq (h : Trimmed cs) : trim cs = cs := trim_eq_self cs h.head h.last

end Text

namespace Decimal

variable {cs : List Char} {n : Nat}

/-- The text is an unsigned 64-bit decimal of the given value: at least one digit, perhaps behind a
plus sign. -/
def Spells (cs : List Char) (n : Nat) : Prop :=
  ∃ digits, (cs = digits ∨ cs = '+' :: digits) ∧ digits ≠ [] ∧ (∀ c ∈ digits, c.isDigit = true) ∧
    Nat.ofDigitChars 10 digits 0 = n ∧ n < UInt64.size

theorem eq_or_eq_cons_dropPlus (cs : List Char) : cs = dropPlus cs ∨ cs = '+' :: dropPlus cs := by
  unfold dropPlus
  split
  · exact .inr rfl
  · exact .inl rfl

theorem value?_eq_some_iff : value? cs = some n ↔
    cs ≠ [] ∧ (∀ c ∈ cs, c.isDigit = true) ∧ Nat.ofDigitChars 10 cs 0 = n := by
  unfold value?
  split_ifs with h
  · simp only [List.all_eq_true] at h
    rw [Option.some_inj]
    exact ⟨fun hn => ⟨h.1, h.2, hn⟩, fun hn => hn.2.2⟩
  · refine ⟨fun hn => absurd hn (by simp), ?_⟩
    rintro ⟨hne, hd, -⟩
    exact absurd ⟨hne, List.all_eq_true.2 hd⟩ h

theorem word?_eq_some_iff : word? cs = some n ↔ Spells cs n := by
  rw [word?, Option.filter_eq_some_iff, value?_eq_some_iff, decide_eq_true_iff]
  constructor
  · rintro ⟨⟨hne, hd, hv⟩, hn⟩
    exact ⟨dropPlus cs, eq_or_eq_cons_dropPlus cs, hne, hd, hv, hn⟩
  · rintro ⟨digits, rfl | rfl, hne, hd, hv, hn⟩
    · rw [dropPlus_of_isDigit _ hd]
      exact ⟨⟨hne, hd, hv⟩, hn⟩
    · exact ⟨⟨hne, hd, hv⟩, hn⟩

theorem Spells.ne_nil (h : Spells cs n) : cs ≠ [] := by
  obtain ⟨digits, rfl | rfl, hne, _⟩ := h
  · exact hne
  · simp

theorem spells_toDigits (hn : n < UInt64.size) : Spells (Nat.toDigits 10 n) n := by
  rw [← word?_eq_some_iff, word?_toDigits, if_pos hn]

end Decimal

end LadderMachine
