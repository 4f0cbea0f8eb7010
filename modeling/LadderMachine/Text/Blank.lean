/-!
# Blank characters and trimming

The characters with the Unicode property White_Space, and the removal of such characters from both
ends of a text. A trimmed text starts and ends with a character that is not blank.
-/

namespace LadderMachine.Text

def isBlank (c : Char) : Bool :=
  let n := c.toNat
  (0x09 ≤ n && n ≤ 0x0D) || n == 0x20 || n == 0x85 || n == 0xA0 || n == 0x1680 ||
    (0x2000 ≤ n && n ≤ 0x200A) || n == 0x2028 || n == 0x2029 || n == 0x202F || n == 0x205F ||
    n == 0x3000

def trimStart (cs : List Char) : List Char := cs.dropWhile isBlank

def trimEnd (cs : List Char) : List Char := (cs.reverse.dropWhile isBlank).reverse

def trim (cs : List Char) : List Char := trimEnd (trimStart cs)

theorem isBlank_of_isDigit (c : Char) (h : c.isDigit = true) : isBlank c = false := by
  have h₁ : 48 ≤ c.toNat ∧ c.toNat ≤ 57 := by
    simpa [Char.isDigit, UInt32.le_iff_toNat_le] using h
  simp only [isBlank, Bool.or_eq_false_iff, Bool.and_eq_false_iff, decide_eq_false_iff_not,
    beq_eq_false_iff_ne]
  omega

@[simp] theorem trim_nil : trim [] = [] := rfl

/-- Nothing is removed from a text whose two ends are not blank. -/
theorem trim_eq_self (cs : List Char) (h₁ : ∀ c ∈ cs.head?, isBlank c = false)
    (h₂ : ∀ c ∈ cs.getLast?, isBlank c = false) : trim cs = cs := by
  have hs : trimStart cs = cs := by
    cases cs with
    | nil => rfl
    | cons c r => simp [trimStart, h₁ c rfl]
  have he : trimEnd cs = cs := by
    unfold trimEnd
    rw [← List.head?_reverse] at h₂
    cases hr : cs.reverse with
    | nil => simpa using hr.symm
    | cons c r =>
      rw [hr] at h₂
      rw [List.dropWhile_cons_of_neg (by simp [h₂ c rfl]), ← hr, List.reverse_reverse]
  rw [trim, hs, he]

end LadderMachine.Text
