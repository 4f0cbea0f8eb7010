import LadderMachine.Disassembly
import LadderMachine.Proofs.Text.Hexadecimal

/-!
# Written numbers

A number that has been written can be recovered from its digits, however many zeros stand in front of
them. So hexadecimal numbers of any width, and signed decimals, are told apart by their texts, and no
character in them is blank.
-/

namespace LadderMachine

section Zeros

variable (f : Nat → Char → Nat)

/-- Zeros in front of digits do not count. -/
theorem foldl_leftpad (hf : f 0 '0' = 0) (width : Nat) (cs : List Char) :
    (cs.leftpad width '0').foldl f 0 = cs.foldl f 0 := by
  have hzeros (k : Nat) : (List.replicate k '0').foldl f 0 = 0 := by
    induction k with
    | zero => rfl
    | succ k ih => rw [List.replicate_succ, List.foldl_cons, hf, ih]
  rw [List.leftpad, List.foldl_append, hzeros]

theorem mem_leftpad {width : Nat} {cs : List Char} {c : Char} (h : c ∈ cs.leftpad width '0') :
    c = '0' ∨ c ∈ cs := by
  rcases List.mem_append.1 h with h | h
  · exact .inl (List.mem_replicate.1 h).2
  · exact .inr h

end Zeros

namespace Hexadecimal

/-- The number that a text of digits stands for. -/
def number (cs : List Char) : Nat :=
  cs.foldl (fun n c => 16 * n + value (UInt8.ofNat c.toNat)) 0

theorem number_append_digitChar (cs : List Char) {d : Nat} (h : d < 16) :
    number (cs ++ [Nat.digitChar d]) = 16 * number cs + d := by
  have hd : value (UInt8.ofNat (Nat.digitChar d).toNat) = d := by
    rw [value, digit?_digitChar h, Option.getD_some]
  rw [number, List.foldl_append, List.foldl_cons, List.foldl_nil, hd, number]

theorem number_toDigits (n : Nat) : number (Nat.toDigits 16 n) = n := by
  induction n using Nat.strongRecOn with
  | ind n ih =>
    rw [Nat.toDigits_eq_if (by decide)]
    split
    · next h => exact (number_append_digitChar [] h).trans (Nat.zero_add n)
    · next h =>
      rw [number_append_digitChar _ (Nat.mod_lt n (by decide)), ih (n / 16) (by omega)]
      exact Nat.div_add_mod n 16

theorem number_digits (width n : Nat) : number (digits width n) = n := by
  rw [number, digits, foldl_leftpad _ rfl]
  exact number_toDigits n

theorem digits_inj {width m n : Nat} (h : digits width m = digits width n) : m = n := by
  rw [← number_digits width m, h, number_digits]

theorem exists_digitChar_of_mem_toDigits {n : Nat} {c : Char} (h : c ∈ Nat.toDigits 16 n) :
    ∃ d < 16, c = Nat.digitChar d := by
  induction n using Nat.strongRecOn with
  | ind n ih =>
    rw [Nat.toDigits_eq_if (by decide)] at h
    split at h
    · next hlt => exact ⟨n, hlt, List.mem_singleton.1 h⟩
    · next hge =>
      rcases List.mem_append.1 h with h | h
      · exact ih (n / 16) (by omega) h
      · exact ⟨n % 16, Nat.mod_lt n (by decide), List.mem_singleton.1 h⟩

theorem isDigit_of_mem_digits {width n : Nat} {c : Char} (h : c ∈ digits width n) : IsDigit c := by
  rcases mem_leftpad h with rfl | h
  · exact isDigit_iff.2 (by decide)
  · obtain ⟨d, hd, rfl⟩ := exists_digitChar_of_mem_toDigits h
    exact isDigit_digitChar hd

end Hexadecimal

namespace Decimal

/-- The integer that a text of digits stands for, perhaps behind a minus sign. -/
def integer (cs : List Char) : Int :=
  if cs.head? = some '-' then -(Nat.ofDigitChars 10 cs.tail 0 : Nat) else Nat.ofDigitChars 10 cs 0

theorem isDigit_of_mem_leftpad {width n : Nat} {c : Char}
    (h : c ∈ (Nat.toDigits 10 n).leftpad width '0') : c.isDigit = true := by
  rcases mem_leftpad h with rfl | h
  · rfl
  · exact Nat.isDigit_of_mem_toDigits (by decide) (by decide) h

theorem ofDigitChars_leftpad (width n : Nat) :
    Nat.ofDigitChars 10 ((Nat.toDigits 10 n).leftpad width '0') 0 = n := by
  rw [Nat.ofDigitChars, foldl_leftpad _ rfl]
  exact Nat.ofDigitChars_ten_toDigits

theorem integer_padded (width : Nat) (n : Int) : integer (padded width n).toList = n := by
  simp only [padded, String.toList_ofList]
  by_cases hn : n < 0
  · rw [if_pos hn, List.singleton_append, integer, List.head?_cons, if_pos rfl, List.tail_cons,
      ofDigitChars_leftpad]
    omega
  · rw [if_neg hn, List.nil_append, integer, ofDigitChars_leftpad, if_neg]
    · omega
    · intro h
      exact absurd (isDigit_of_mem_leftpad (List.mem_of_mem_head? h)) (by decide)

theorem isDigit_of_mem_padded {width : Nat} {n : Int} {c : Char}
    (h : c ∈ (padded width n).toList) : c = '-' ∨ c.isDigit = true := by
  simp only [padded, String.toList_ofList] at h
  rcases List.mem_append.1 h with h | h
  · split at h
    · exact .inl (List.mem_singleton.1 h)
    · exact absurd h List.not_mem_nil
  · exact .inr (isDigit_of_mem_leftpad h)

theorem padded_zero (n : Int) : padded 0 n = integerText n := by
  apply String.toList_inj.1
  cases n <;> simp [padded, integerText, toString, Int.repr, List.leftpad]

end Decimal

end LadderMachine
