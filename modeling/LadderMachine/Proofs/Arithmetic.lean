import Mathlib.Data.Int.ModEq
import LadderMachine.Arithmetic

/-!
# The integers behind the arithmetic

Every operation has an ideal result over the integers, with quotients truncated toward zero, and gives
the one word that this result wraps around to (`exists_apply`). So what holds over the integers holds of
words up to multiples of `2 ^ 32`. Only one quotient does not fit into a word, and even there quotient,
divisor and remainder give back the dividend.
-/

namespace LadderMachine

/-- Among all words, this is the one that agrees with the number up to a multiple of `2 ^ 32`. -/
def Wraps (n : Int) (c : Int32) : Prop := ∀ d : Int32, d.toInt ≡ n [ZMOD 4294967296] ↔ d = c

section Words

variable {c d : Int32} {n : Int}

theorem bmod_modEq (n : Int) : n.bmod 4294967296 ≡ n [ZMOD 4294967296] := Int.bmod_emod

theorem eq_of_modEq (h : c.toInt ≡ d.toInt [ZMOD 4294967296]) : c = d := by
  have hmod : c.toInt.bmod 4294967296 = d.toInt.bmod 4294967296 := by
    rw [← Int.emod_bmod c.toInt, ← Int.emod_bmod d.toInt]
    exact congrArg (Int.bmod · 4294967296) h
  rwa [Int32.toInt_bmod, Int32.toInt_bmod, Int32.toInt_inj] at hmod

theorem wraps_iff : Wraps n c ↔ c.toInt ≡ n [ZMOD 4294967296] := by
  constructor
  · exact fun h => (h c).2 rfl
  · intro h d
    constructor
    · exact fun hd => eq_of_modEq (hd.trans h.symm)
    · rintro rfl
      exact h

end Words

namespace Arithmetic

def ideal : Arithmetic → Int → Int → Int
  | add, m, n => m + n
  | subtract, m, n => m - n
  | multiply, m, n => m * n
  | divide, m, n => m.tdiv n
  | modulo, m, n => m.tmod n

/-- Quotient and remainder of a division of words. -/
structure Division (a b q r : Int32) : Prop where
  truncated (h : ¬ (a = Int32.minValue ∧ b = -1)) : q.toInt = a.toInt.tdiv b.toInt
  overflow (h : a = Int32.minValue ∧ b = -1) : q = Int32.minValue
  sign : r = 0 ∨ r.toInt.sign = a.toInt.sign
  small : r.toInt.natAbs < b.toInt.natAbs
  recomposed : ∃ p, multiply.apply q b = some p ∧ add.apply p r = some a

variable {a b q r : Int32}

theorem toInt_of_apply {kind : Arithmetic} {c : Int32} (h : kind.apply a b = some c) :
    c.toInt = (kind.ideal a.toInt b.toInt).bmod 4294967296 := by
  cases kind with
  | add =>
    cases h
    exact Int32.toInt_add a b
  | subtract =>
    cases h
    exact Int32.toInt_sub a b
  | multiply =>
    cases h
    exact Int32.toInt_mul a b
  | divide =>
    rw [apply, Option.ite_none_left_eq_some, Option.some_inj] at h
    rw [← h.2]
    exact Int32.toInt_div a b
  | modulo =>
    rw [apply, Option.ite_none_left_eq_some, Option.some_inj] at h
    rw [← h.2, ← Int32.toInt_bmod, Int32.toInt_mod]
    rfl

theorem exists_apply (kind : Arithmetic) (a b : Int32)
    (h : ¬ ((kind = divide ∨ kind = modulo) ∧ b = 0)) :
    ∃ c, kind.apply a b = some c ∧ Wraps (kind.ideal a.toInt b.toInt) c := by
  cases hc : kind.apply a b with
  | none => exact absurd ((apply_eq_none_iff kind a b).1 hc) h
  | some c =>
    refine ⟨c, rfl, wraps_iff.2 ?_⟩
    rw [toInt_of_apply hc]
    exact bmod_modEq _

theorem toInt_quotient (h : ¬ (a = Int32.minValue ∧ b = -1)) :
    (a / b).toInt = a.toInt.tdiv b.toInt := by
  by_cases ha : a = Int32.minValue
  · exact Int32.toInt_div_of_ne_right a b fun hb => h ⟨ha, hb⟩
  · exact Int32.toInt_div_of_ne_left a b ha

theorem sign_remainder (a b : Int32) : a % b = 0 ∨ (a % b).toInt.sign = a.toInt.sign := by
  have hsign := Int.sign_tmod a.toInt b.toInt
  rw [← Int32.toInt_mod] at hsign
  by_cases hd : b.toInt ∣ a.toInt
  · rw [if_pos hd, Int.sign_eq_zero_iff_zero] at hsign
    exact .inl (Int32.toInt_inj.1 hsign)
  · rw [if_neg hd] at hsign
    exact .inr hsign

theorem natAbs_remainder_lt (h : b ≠ 0) : (a % b).toInt.natAbs < b.toInt.natAbs := by
  have hb : b.toInt ≠ 0 := fun h₀ => h (Int32.toInt_inj.1 h₀)
  rw [Int32.toInt_mod, Int.natAbs_tmod]
  exact Nat.mod_lt _ (Int.natAbs_pos.2 hb)

/-- Whether or not the quotient fits, it differs from the ideal one by a multiple of `2 ^ 32`. -/
theorem exists_recomposed (hq : divide.apply a b = some q) (hr : modulo.apply a b = some r) :
    ∃ p, multiply.apply q b = some p ∧ add.apply p r = some a := by
  obtain ⟨p, hp, hwp⟩ := exists_apply multiply q b (by simp)
  obtain ⟨s, hs, hws⟩ := exists_apply add p r (by simp)
  have hquotient : q.toInt ≡ a.toInt.tdiv b.toInt [ZMOD 4294967296] := by
    rw [toInt_of_apply hq]
    exact bmod_modEq _
  have hremainder : r.toInt ≡ a.toInt.tmod b.toInt [ZMOD 4294967296] := by
    rw [toInt_of_apply hr]
    exact bmod_modEq _
  have hproduct : p.toInt ≡ a.toInt.tdiv b.toInt * b.toInt [ZMOD 4294967296] :=
    (wraps_iff.1 hwp).trans (hquotient.mul_right b.toInt)
  have hsum : s.toInt ≡ a.toInt [ZMOD 4294967296] := by
    rw [← Int.tdiv_mul_add_tmod a.toInt b.toInt]
    exact (wraps_iff.1 hws).trans (hproduct.add hremainder)
  exact ⟨p, hp, eq_of_modEq hsum ▸ hs⟩

theorem exists_division (h : b ≠ 0) : ∃ q r, divide.apply a b = some q ∧
    modulo.apply a b = some r ∧ Division a b q r := by
  have hq : divide.apply a b = some (a / b) := if_neg h
  have hr : modulo.apply a b = some (a % b) := if_neg h
  exact ⟨a / b, a % b, hq, hr, {
    truncated := toInt_quotient
    overflow := by
      rintro ⟨rfl, rfl⟩
      exact Int32.minValue_div_neg_one
    sign := sign_remainder a b
    small := natAbs_remainder_lt h
    recomposed := exists_recomposed hq hr }⟩

/-- Sums, differences and products wrap around to the one word that agrees with them. A quotient and a
remainder exist exactly for a divisor other than zero. -/
theorem apply_exact (a b : Int32) :
    (∃ c, add.apply a b = some c ∧ Wraps (a.toInt + b.toInt) c) ∧
      (∃ c, subtract.apply a b = some c ∧ Wraps (a.toInt - b.toInt) c) ∧
      (∃ c, multiply.apply a b = some c ∧ Wraps (a.toInt * b.toInt) c) ∧
      (divide.apply a b = none ↔ b = 0) ∧ (modulo.apply a b = none ↔ b = 0) ∧
      (b ≠ 0 → ∃ q r, divide.apply a b = some q ∧ modulo.apply a b = some r ∧ Division a b q r) := by
  refine ⟨?_, ?_, ?_, ?_, ?_, ?_⟩
  · exact exists_apply add a b (by simp)
  · exact exists_apply subtract a b (by simp)
  · exact exists_apply multiply a b (by simp)
  · rw [apply_eq_none_iff]
    exact and_iff_right (.inl rfl)
  · rw [apply_eq_none_iff]
    exact and_iff_right (.inr rfl)
  · exact exists_division

/-- The least word divided by minus one is itself, without remainder. -/
theorem apply_exact_overflow : ∃ q r, divide.apply Int32.minValue (-1) = some q ∧
    modulo.apply Int32.minValue (-1) = some r ∧ Division Int32.minValue (-1) q r ∧
    q = Int32.minValue ∧ r = 0 := by
  obtain ⟨-, -, -, -, -, hdivision⟩ := apply_exact Int32.minValue (-1)
  obtain ⟨q, r, hq, hr, hd⟩ := hdivision (by decide)
  have hzero : modulo.apply Int32.minValue (-1) = some 0 := by decide
  exact ⟨q, r, hq, hr, hd, hd.overflow ⟨rfl, rfl⟩, Option.some.inj (hr.symm.trans hzero)⟩

end Arithmetic

end LadderMachine
