import Mathlib.Data.List.GetD
import Mathlib.Data.List.OfFn
import Mathlib.Tactic.IntervalCases
import LadderMachine.Text.Hexadecimal

/-!
# Digits and bytes

A digit is one byte of text and has a value below 16, and a character that is no digit shows in its
bytes. Two digits at a time make up a byte, whose written form is the same digits in lower case; so
bytes are determined by what they are written as.
-/

namespace LadderMachine

namespace Hexadecimal

variable {c : Char} {t : List Char}

/-- A hexadecimal digit of either case. -/
def IsDigit (c : Char) : Prop :=
  ('0' ≤ c ∧ c ≤ '9') ∨ ('a' ≤ c ∧ c ≤ 'f') ∨ ('A' ≤ c ∧ c ≤ 'F')

instance : DecidablePred IsDigit := fun _ => inferInstanceAs (Decidable (_ ∨ _ ∨ _))

theorem isDigit_iff : IsDigit c ↔ (48 ≤ c.toNat ∧ c.toNat ≤ 57) ∨
    (97 ≤ c.toNat ∧ c.toNat ≤ 102) ∨ (65 ≤ c.toNat ∧ c.toNat ≤ 70) := by
  simp [IsDigit, Char.le_def, UInt32.le_iff_toNat_le]

theorem encode_of_lt (h : c.toNat < 0x80) :
    String.utf8EncodeChar c = [UInt8.ofNat c.toNat] := by
  have hle : c.val.toNat ≤ 0x7f := Nat.le_of_lt_succ h
  rw [String.utf8EncodeChar, if_pos hle]
  rfl

theorem exists_large_byte (h : 0x80 ≤ c.toNat) :
    ∃ b ∈ String.utf8EncodeChar c, 0x80 ≤ b.toNat := by
  have hgt : ¬ c.val.toNat ≤ 0x7f := Nat.not_le_of_gt h
  simp only [String.utf8EncodeChar, if_neg hgt]
  split_ifs
  · refine ⟨_, List.mem_cons_self, ?_⟩
    rw [UInt8.toNat_ofNat']
    omega
  · refine ⟨_, List.mem_cons_self, ?_⟩
    rw [UInt8.toNat_ofNat']
    omega
  · refine ⟨_, List.mem_cons_self, ?_⟩
    rw [UInt8.toNat_ofNat']
    omega

theorem digit?_eq_none_iff {b : UInt8} : digit? b = none ↔ ¬ ((48 ≤ b.toNat ∧ b.toNat ≤ 57) ∨
    (97 ≤ b.toNat ∧ b.toNat ≤ 102) ∨ (65 ≤ b.toNat ∧ b.toNat ≤ 70)) := by
  simp only [digit?]
  split_ifs with h₁ h₂ h₃
  · simp [h₁]
  · simp [h₂]
  · simp [h₃]
  · simp only [true_iff]
    omega

theorem IsDigit.encode_eq (h : IsDigit c) : String.utf8EncodeChar c = [UInt8.ofNat c.toNat] := by
  have hn := isDigit_iff.1 h
  exact encode_of_lt (by omega)

theorem exists_digit?_ofNat {n : Nat}
    (h : (48 ≤ n ∧ n ≤ 57) ∨ (97 ≤ n ∧ n ≤ 102) ∨ (65 ≤ n ∧ n ≤ 70)) :
    ∃ d, digit? (UInt8.ofNat n) = some d ∧ Nat.digitChar d = (Char.ofNat n).toLower := by
  rcases h with ⟨h₁, h₂⟩ | ⟨h₁, h₂⟩ | ⟨h₁, h₂⟩
  all_goals
    interval_cases n <;> exact ⟨_, rfl, rfl⟩

theorem IsDigit.exists_digit? (h : IsDigit c) :
    ∃ d, digit? (UInt8.ofNat c.toNat) = some d ∧ Nat.digitChar d = c.toLower := by
  have hd := exists_digit?_ofNat (isDigit_iff.1 h)
  rwa [Char.ofNat_toNat] at hd

theorem exists_digit?_eq_none (h : ¬ IsDigit c) :
    ∃ b ∈ String.utf8EncodeChar c, digit? b = none := by
  rw [isDigit_iff] at h
  by_cases hlt : c.toNat < 0x80
  · rw [encode_of_lt hlt]
    refine ⟨_, List.mem_singleton_self _, digit?_eq_none_iff.2 ?_⟩
    rwa [UInt8.toNat_ofNat', Nat.mod_eq_of_lt (by omega)]
  · obtain ⟨b, hb, hle⟩ := exists_large_byte (Nat.not_lt.1 hlt)
    exact ⟨b, hb, digit?_eq_none_iff.2 (by omega)⟩

theorem encode_eq_map (h : ∀ c ∈ t, IsDigit c) :
    t.flatMap String.utf8EncodeChar = t.map fun c => UInt8.ofNat c.toNat := by
  induction t with
  | nil => rfl
  | cons c r ih =>
    rw [List.flatMap_cons, (h c (by simp)).encode_eq, ih fun d hd => h d (by simp [hd])]
    rfl

/-- Value of a byte as a digit; bytes that are no digits count as zero. -/
def value (b : UInt8) : Nat := (digit? b).getD 0

def values (t : List Char) : List Nat := (t.flatMap String.utf8EncodeChar).map value

theorem IsDigit.value_lt (h : IsDigit c) : value (UInt8.ofNat c.toNat) < 16 := by
  obtain ⟨d, hd, -⟩ := h.exists_digit?
  rw [value, hd]
  exact digit?_lt hd

theorem IsDigit.digitChar_value (h : IsDigit c) :
    Nat.digitChar (value (UInt8.ofNat c.toNat)) = c.toLower := by
  obtain ⟨d, hd, hlow⟩ := h.exists_digit?
  rw [value, hd, Option.getD_some, hlow]

theorem values_eq_map (h : ∀ c ∈ t, IsDigit c) :
    values t = t.map fun c => value (UInt8.ofNat c.toNat) := by
  rw [values, encode_eq_map h, List.map_map]
  rfl

theorem lt_of_mem_values (h : ∀ c ∈ t, IsDigit c) {d : Nat} (hd : d ∈ values t) : d < 16 := by
  rw [values_eq_map h] at hd
  obtain ⟨c, hc, rfl⟩ := List.mem_map.1 hd
  exact (h c hc).value_lt

theorem map_digitChar_values (h : ∀ c ∈ t, IsDigit c) :
    (values t).map Nat.digitChar = t.map Char.toLower := by
  rw [values_eq_map h, List.map_map]
  exact List.map_congr_left fun c hc => (h c hc).digitChar_value

theorem value_getD (bs : List UInt8) (n : Nat) : value (bs.getD n 0) = (bs.map value).getD n 0 :=
  (List.getD_map bs 0 value).symm

theorem ofByte_pair {a b : Nat} (ha : a < 16) (hb : b < 16) :
    ofByte (UInt8.ofNat (16 * a + b)) = [Nat.digitChar a, Nat.digitChar b] := by
  have hn : (UInt8.ofNat (16 * a + b)).toNat = 16 * a + b := by
    rw [UInt8.toNat_ofNat', Nat.mod_eq_of_lt (by omega)]
  have hq : (16 * a + b) / 16 = a := by omega
  have hr : (16 * a + b) % 16 = b := by omega
  rw [ofByte, hn, hq, hr]

/-- Numbers of one digit, taken in pairs, are written one after the other. -/
theorem flatMap_ofByte_ofFn (k : Nat) (ds : List Nat) (hl : ds.length = 2 * k)
    (hd : ∀ d ∈ ds, d < 16) :
    (List.ofFn fun n : Fin k => UInt8.ofNat (16 * ds.getD (2 * n) 0 + ds.getD (2 * n + 1) 0)).flatMap
      ofByte = ds.map Nat.digitChar := by
  induction k generalizing ds with
  | zero => simp [List.length_eq_zero_iff.1 hl]
  | succ k ih =>
    obtain ⟨a, b, rest, rfl⟩ : ∃ a b rest, ds = a :: b :: rest := by
      match ds, hl with
      | a :: b :: rest, _ => exact ⟨a, b, rest, rfl⟩
    have hrest := ih rest (by simpa [Nat.mul_succ] using hl) fun d h => hd d (by simp [h])
    have hpair := ofByte_pair (hd a (by simp)) (hd b (by simp))
    simp only [List.ofFn_succ, List.flatMap_cons, Fin.val_zero, Fin.val_succ, Nat.mul_succ,
      Nat.mul_zero, List.getD_cons_zero, List.getD_cons_succ]
    rw [hpair, hrest]
    rfl

theorem isDigit_digitChar {d : Nat} (h : d < 16) : IsDigit (Nat.digitChar d) := by
  rw [isDigit_iff]
  interval_cases d <;> decide

theorem toLower_digitChar {d : Nat} (h : d < 16) :
    (Nat.digitChar d).toLower = Nat.digitChar d := by
  interval_cases d <;> rfl

theorem digit?_digitChar {d : Nat} (h : d < 16) :
    digit? (UInt8.ofNat (Nat.digitChar d).toNat) = some d := by
  interval_cases d <;> rfl

theorem digitChar_inj {a b : Nat} (ha : a < 16) (hb : b < 16)
    (h : Nat.digitChar a = Nat.digitChar b) : a = b := by
  have hd := digit?_digitChar ha
  rw [h, digit?_digitChar hb] at hd
  exact (Option.some.inj hd).symm

theorem ofByte_inj {a b : UInt8} (h : ofByte a = ofByte b) : a = b := by
  have ha := a.toNat_lt
  have hb := b.toNat_lt
  simp only [ofByte, List.cons.injEq, and_true] at h
  have hhigh := digitChar_inj (by omega) (by omega) h.1
  have hlow := digitChar_inj (by omega) (by omega) h.2
  rw [← UInt8.toNat_inj]
  omega

theorem flatMap_ofByte_inj {bs bs' : List UInt8} (h : bs.flatMap ofByte = bs'.flatMap ofByte) :
    bs = bs' := by
  induction bs generalizing bs' with
  | nil =>
    cases bs' with
    | nil => rfl
    | cons b' r' => simp [ofByte] at h
  | cons b r ih =>
    cases bs' with
    | nil => simp [ofByte] at h
    | cons b' r' =>
      rw [List.flatMap_cons, List.flatMap_cons] at h
      obtain ⟨hb, hr⟩ := List.append_inj h rfl
      rw [ofByte_inj hb, ih hr]

theorem exists_digitChar_of_mem_ofByte {b : UInt8} (h : c ∈ ofByte b) :
    ∃ d < 16, c = Nat.digitChar d := by
  have hb := b.toNat_lt
  simp only [ofByte, List.mem_cons, List.not_mem_nil, or_false] at h
  rcases h with rfl | rfl
  · exact ⟨_, by omega, rfl⟩
  · exact ⟨_, by omega, rfl⟩

end Hexadecimal

end LadderMachine
