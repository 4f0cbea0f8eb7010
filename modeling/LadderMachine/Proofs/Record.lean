import Mathlib.Tactic.IntervalCases
import LadderMachine.Record
import LadderMachine.Proofs.Text.Hexadecimal

/-!
# The text of instruction records

Records and their bytes determine each other. A text is read as a record exactly if it consists of 24
hexadecimal digits, and then the record is the one that is written as the same digits in lower case.
Any other text is refused for the number of its bytes, or else for the first byte that is no digit
(`Reads`).
-/

namespace LadderMachine

namespace Word

theorem toNat_byte (n i : Nat) : (byte n i).toNat = n / 256 ^ i % 256 := by
  simp [byte]

theorem ofTwo_byte (w : Int16) : ofTwo (byte w.toUInt16.toNat 0) (byte w.toUInt16.toNat 1) = w := by
  have hlt := w.toUInt16.toNat_lt
  have hn : w.toUInt16.toNat / 256 ^ 0 % 256 + 256 * (w.toUInt16.toNat / 256 ^ 1 % 256) =
      w.toUInt16.toNat := by omega
  rw [ofTwo, toNat_byte, toNat_byte, hn, UInt16.ofNat_toNat, Int16.toInt16_toUInt16]

theorem ofFour_byte (w : Int32) : ofFour (byte w.toUInt32.toNat 0) (byte w.toUInt32.toNat 1)
    (byte w.toUInt32.toNat 2) (byte w.toUInt32.toNat 3) = w := by
  have hlt := w.toUInt32.toNat_lt
  have hn : w.toUInt32.toNat / 256 ^ 0 % 256 + 256 * (w.toUInt32.toNat / 256 ^ 1 % 256) +
      0x10000 * (w.toUInt32.toNat / 256 ^ 2 % 256) + 0x1000000 * (w.toUInt32.toNat / 256 ^ 3 % 256) =
      w.toUInt32.toNat := by omega
  rw [ofFour, toNat_byte, toNat_byte, toNat_byte, toNat_byte, hn, UInt32.ofNat_toNat,
    Int32.toInt32_toUInt32]

theorem toNat_ofTwo (a b : UInt8) : (ofTwo a b).toUInt16.toNat = a.toNat + 256 * b.toNat := by
  have ha := a.toNat_lt
  have hb := b.toNat_lt
  rw [ofTwo, UInt16.toUInt16_toInt16, UInt16.toNat_ofNat']
  exact Nat.mod_eq_of_lt (by omega)

theorem toNat_ofFour (a b c d : UInt8) : (ofFour a b c d).toUInt32.toNat =
    a.toNat + 256 * b.toNat + 0x10000 * c.toNat + 0x1000000 * d.toNat := by
  have ha := a.toNat_lt
  have hb := b.toNat_lt
  have hc := c.toNat_lt
  have hd := d.toNat_lt
  rw [ofFour, UInt32.toUInt32_toInt32, UInt32.toNat_ofNat']
  exact Nat.mod_eq_of_lt (by omega)

theorem byte_eq {n i : Nat} {b : UInt8} (h : n / 256 ^ i % 256 = b.toNat) : byte n i = b := by
  rw [← UInt8.toNat_inj, toNat_byte, h]

theorem byte_ofTwo (a b : UInt8) :
    byte (ofTwo a b).toUInt16.toNat 0 = a ∧ byte (ofTwo a b).toUInt16.toNat 1 = b := by
  have ha := a.toNat_lt
  have hb := b.toNat_lt
  rw [toNat_ofTwo]
  refine ⟨byte_eq ?_, byte_eq ?_⟩
  · omega
  · omega

theorem byte_ofFour (a b c d : UInt8) :
    byte (ofFour a b c d).toUInt32.toNat 0 = a ∧ byte (ofFour a b c d).toUInt32.toNat 1 = b ∧
      byte (ofFour a b c d).toUInt32.toNat 2 = c ∧ byte (ofFour a b c d).toUInt32.toNat 3 = d := by
  have ha := a.toNat_lt
  have hb := b.toNat_lt
  have hc := c.toNat_lt
  have hd := d.toNat_lt
  rw [toNat_ofFour]
  refine ⟨byte_eq ?_, byte_eq ?_, byte_eq ?_, byte_eq ?_⟩
  · omega
  · omega
  · omega
  · omega

end Word

namespace Instruction

theorem ofBytes_toBytes (i : Instruction) : ofBytes i.toBytes = i := by
  simp only [ofBytes, toBytes]
  obtain ⟨code, first, second, third, literal⟩ := i
  congr 1
  · exact Word.ofTwo_byte code
  · exact Word.ofTwo_byte first
  · exact Word.ofTwo_byte second
  · exact Word.ofTwo_byte third
  · exact Word.ofFour_byte literal

theorem toBytes_ofBytes (b : Vector UInt8 12) : (ofBytes b).toBytes = b := by
  simp only [toBytes, ofBytes, Word.byte_ofTwo, Word.byte_ofFour]
  ext n hn
  interval_cases n <;> rfl

theorem toHex_inj {i j : Instruction} (h : i.toHex = j.toHex) : i = j := by
  have hb : i.toBytes = j.toBytes := Vector.toList_inj.1 (Hexadecimal.flatMap_ofByte_inj h)
  rw [← ofBytes_toBytes i, hb, ofBytes_toBytes]

theorem exists_digitChar_of_mem_toHex {i : Instruction} {c : Char} (h : c ∈ i.toHex) :
    ∃ d < 16, c = Nat.digitChar d := by
  obtain ⟨b, _, hc⟩ := List.mem_flatMap.1 h
  exact Hexadecimal.exists_digitChar_of_mem_ofByte hc

theorem isDigit_of_mem_toHex {i : Instruction} {c : Char} (h : c ∈ i.toHex) :
    Hexadecimal.IsDigit c := by
  obtain ⟨d, hd, rfl⟩ := exists_digitChar_of_mem_toHex h
  exact Hexadecimal.isDigit_digitChar hd

theorem map_toLower_toHex (i : Instruction) : i.toHex.map Char.toLower = i.toHex := by
  rw [List.map_congr_left (g := id), List.map_id]
  intro c hc
  obtain ⟨d, hd, rfl⟩ := exists_digitChar_of_mem_toHex hc
  exact Hexadecimal.toLower_digitChar hd

theorem length_toHex (i : Instruction) : i.toHex.length = 24 := by
  simp [toHex, Hexadecimal.ofByte, toBytes]

variable {t : List Char} {i : Instruction}

/-- A text in whose bytes no fault is found consists of digits. -/
theorem isDigit_of_find?_eq_none
    (h : (t.flatMap String.utf8EncodeChar).find? (fun b => (Hexadecimal.digit? b).isNone) = none) :
    ∀ c ∈ t, Hexadecimal.IsDigit c := by
  intro c hc
  by_contra hn
  obtain ⟨b, hb, hnone⟩ := Hexadecimal.exists_digit?_eq_none hn
  have hsome := List.find?_eq_none.1 h b (List.mem_flatMap.2 ⟨c, hc, hb⟩)
  simp [hnone] at hsome

theorem isDigits_of_ofHex (h : ofHex t = .ok i) :
    t.length = 24 ∧ ∀ c ∈ t, Hexadecimal.IsDigit c := by
  simp only [ofHex] at h
  split_ifs at h with hl
  cases hf : (t.flatMap String.utf8EncodeChar).find? fun b => (Hexadecimal.digit? b).isNone with
  | some b => simp [hf] at h
  | none =>
    have hd := isDigit_of_find?_eq_none hf
    rw [not_not, Hexadecimal.encode_eq_map hd, List.length_map] at hl
    exact ⟨hl, hd⟩

/-- A text of 24 digits is the record that is written as the same digits in lower case. -/
theorem exists_ofHex (hl : t.length = 24) (hd : ∀ c ∈ t, Hexadecimal.IsDigit c) :
    ∃ i, ofHex t = .ok i ∧ i.toHex = t.map Char.toLower := by
  have hbytes := Hexadecimal.encode_eq_map hd
  have hlen : (t.flatMap String.utf8EncodeChar).length = 24 := by
    rw [hbytes, List.length_map, hl]
  have hnone : (t.flatMap String.utf8EncodeChar).find?
      (fun b => (Hexadecimal.digit? b).isNone) = none := by
    rw [hbytes, List.find?_eq_none]
    intro b hb
    obtain ⟨c, hc, rfl⟩ := List.mem_map.1 hb
    obtain ⟨d, hd, -⟩ := (hd c hc).exists_digit?
    simp [hd]
  have hwrite := Hexadecimal.flatMap_ofByte_ofFn 12 (Hexadecimal.values t)
    (by rw [Hexadecimal.values, List.length_map, hlen])
    fun d h => Hexadecimal.lt_of_mem_values hd h
  refine ⟨ofBytes (Vector.ofFn fun n => UInt8.ofNat (16 * (Hexadecimal.values t).getD (2 * n) 0 +
    (Hexadecimal.values t).getD (2 * n + 1) 0)), ?_, ?_⟩
  · simp only [ofHex, hlen, hnone, Hexadecimal.values, ← Hexadecimal.value_getD]
    rfl
  · rw [toHex, toBytes_ofBytes, Vector.toList_ofFn, hwrite, Hexadecimal.map_digitChar_values hd]

/-- The text is a record: 24 digits, which are written as the same digits in lower case. -/
def Spells (t : List Char) (i : Instruction) : Prop :=
  t.length = 24 ∧ (∀ c ∈ t, Hexadecimal.IsDigit c) ∧ i.toHex = t.map Char.toLower

theorem ofHex_eq_ok_iff : ofHex t = .ok i ↔ Spells t i := by
  constructor
  · intro h
    obtain ⟨hl, hd⟩ := isDigits_of_ofHex h
    obtain ⟨j, hj, hw⟩ := exists_ofHex hl hd
    rw [hj] at h
    cases h
    exact ⟨hl, hd, hw⟩
  · rintro ⟨hl, hd, hw⟩
    obtain ⟨j, hj, hw'⟩ := exists_ofHex hl hd
    rw [hj, toHex_inj (hw.trans hw'.symm)]

theorem spells_toHex (i : Instruction) : Spells i.toHex i :=
  ⟨length_toHex i, fun _ hc => isDigit_of_mem_toHex hc, (map_toLower_toHex i).symm⟩

/-- A byte that is the code of a digit. -/
def DigitByte (b : UInt8) : Prop := ∃ c, Hexadecimal.IsDigit c ∧ c.toNat = b.toNat

/-- What becomes of a text that is read as a record: it has 24 bytes, all of them digits, or it is
refused for the number of its bytes, or else for the first of them that is no digit. -/
inductive Reads (t : String) : Except RecordError Instruction → Prop
  | record {i : Instruction} (hl : t.utf8ByteSize = 24)
      (hd : ∀ c ∈ t.toList, Hexadecimal.IsDigit c) (hw : i.toHex = t.toList.map Char.toLower) :
    Reads t (.ok i)
  | length (hl : t.utf8ByteSize ≠ 24) : Reads t (.error (.length t.utf8ByteSize))
  | digit {before after : List UInt8} {b : UInt8} {c : Char} (hl : t.utf8ByteSize = 24)
      (h : t.toByteArray.data.toList = before ++ b :: after) (hbefore : ∀ d ∈ before, DigitByte d)
      (hb : ¬ DigitByte b) (hc : c.toNat = b.toNat) : Reads t (.error (.digit c))

theorem toNat_ofNat_byte (b : UInt8) : (Char.ofNat b.toNat).toNat = b.toNat := by
  have hb := b.toNat_lt
  have hv : b.toNat.isValidChar := .inl (by omega)
  rw [Char.ofNat, dif_pos hv]
  rfl

theorem isNone_digit?_iff {b : UInt8} : (Hexadecimal.digit? b).isNone = true ↔ ¬ DigitByte b := by
  rw [Option.isNone_iff_eq_none, Hexadecimal.digit?_eq_none_iff]
  refine not_congr ⟨fun h => ?_, ?_⟩
  · refine ⟨Char.ofNat b.toNat, Hexadecimal.isDigit_iff.2 ?_, toNat_ofNat_byte b⟩
    rwa [toNat_ofNat_byte]
  · rintro ⟨c, hc, hcode⟩
    rw [← hcode]
    exact Hexadecimal.isDigit_iff.1 hc

instance : DecidablePred DigitByte := fun _ =>
  decidable_of_iff _ (not_congr isNone_digit?_iff |>.trans not_not)

theorem bytes_eq (t : String) :
    t.toList.flatMap String.utf8EncodeChar = t.toByteArray.data.toList := by
  rw [← String.utf8Encode_toList, List.utf8Encode]
  simp

theorem length_bytes (t : String) :
    (t.toList.flatMap String.utf8EncodeChar).length = t.utf8ByteSize := by
  rw [bytes_eq, Array.length_toList]
  rfl

/-- Where every character is a digit, there is a byte for each. -/
theorem length_eq_of_isDigit {t : String} (hd : ∀ c ∈ t.toList, Hexadecimal.IsDigit c) :
    t.toList.length = t.utf8ByteSize := by
  rw [← length_bytes, Hexadecimal.encode_eq_map hd, List.length_map]

theorem ofHex_of_reads {s : String} {r : Except RecordError Instruction} (h : Reads s r) :
    ofHex s.toList = r := by
  cases h with
  | record hl hd hw => exact ofHex_eq_ok_iff.2 ⟨(length_eq_of_isDigit hd).trans hl, hd, hw⟩
  | length hl => simp only [ofHex, length_bytes, if_pos hl]
  | @digit before after b c hl h hbefore hb hc =>
    have hfind : (s.toList.flatMap String.utf8EncodeChar).find?
        (fun b => (Hexadecimal.digit? b).isNone) = some b := by
      rw [List.find?_eq_some_iff_append, bytes_eq]
      refine ⟨isNone_digit?_iff.2 hb, before, after, h, ?_⟩
      intro d hd
      rw [Bool.not_eq_true', Bool.eq_false_iff]
      exact fun hn => isNone_digit?_iff.1 hn (hbefore d hd)
    simp only [ofHex, length_bytes, hl, hfind, ← hc, Char.ofNat_toNat]
    rfl

theorem reads_ofHex (s : String) : Reads s (ofHex s.toList) := by
  by_cases hl : s.utf8ByteSize = 24
  · cases hfind : (s.toList.flatMap String.utf8EncodeChar).find?
        (fun b => (Hexadecimal.digit? b).isNone) with
    | some b =>
      obtain ⟨hb, before, after, h, hbefore⟩ := List.find?_eq_some_iff_append.1 hfind
      have hr : Reads s (.error (.digit (Char.ofNat b.toNat))) := by
        refine .digit hl ((bytes_eq s).symm.trans h) ?_ (isNone_digit?_iff.1 hb) (toNat_ofNat_byte b)
        intro d hd
        by_contra hn
        have hd' := hbefore d hd
        rw [isNone_digit?_iff.2 hn] at hd'
        cases hd'
      rwa [ofHex_of_reads hr]
    | none =>
      have hd := isDigit_of_find?_eq_none hfind
      obtain ⟨i, hi, hw⟩ := exists_ofHex ((length_eq_of_isDigit hd).trans hl) hd
      rw [hi]
      exact .record hl hd hw
  · have hr : Reads s (.error (.length s.utf8ByteSize)) := .length hl
    rwa [ofHex_of_reads hr]

theorem ofHex_eq_iff {s : String} {r : Except RecordError Instruction} :
    ofHex s.toList = r ↔ Reads s r :=
  ⟨fun h => h ▸ reads_ofHex s, ofHex_of_reads⟩

theorem exists_ofHex_iff {s : String} : (∃ i, ofHex s.toList = .ok i) ↔
    s.utf8ByteSize = 24 ∧ ∀ c ∈ s.toList, Hexadecimal.IsDigit c := by
  constructor
  · rintro ⟨i, hi⟩
    cases ofHex_eq_iff.1 hi with
    | record hl hd _ => exact ⟨hl, hd⟩
  · rintro ⟨hl, hd⟩
    obtain ⟨i, hi, -⟩ := exists_ofHex ((length_eq_of_isDigit hd).trans hl) hd
    exact ⟨i, hi⟩

theorem lower_of_mem_toHex {i : Instruction} {c : Char} (h : c ∈ i.toHex) :
    ('0' ≤ c ∧ c ≤ '9') ∨ ('a' ≤ c ∧ c ≤ 'f') := by
  obtain ⟨d, hd, rfl⟩ := exists_digitChar_of_mem_toHex h
  interval_cases d <;> decide

/-- Records, their bytes and their digits in lower case determine each other, and whatever a text is, it
is read as a record or refused as `Reads` says. -/
theorem codec_exact :
    (∀ i : Instruction, ofBytes i.toBytes = i ∧ ofHex i.toHex = .ok i ∧ i.toHex.length = 24 ∧
      ∀ c ∈ i.toHex, ('0' ≤ c ∧ c ≤ '9') ∨ ('a' ≤ c ∧ c ≤ 'f')) ∧
    (∀ b : Vector UInt8 12, (ofBytes b).toBytes = b) ∧
    (∀ s : String, (∃ i, ofHex s.toList = .ok i) ↔
      s.utf8ByteSize = 24 ∧ ∀ c ∈ s.toList, Hexadecimal.IsDigit c) ∧
    ∀ (s : String) (r : Except RecordError Instruction), ofHex s.toList = r ↔ Reads s r := by
  refine ⟨fun i => ⟨ofBytes_toBytes i, ?_, length_toHex i, fun c hc => lower_of_mem_toHex hc⟩,
    toBytes_ofBytes, fun s => exists_ofHex_iff, fun s r => ofHex_eq_iff⟩
  exact ofHex_eq_ok_iff.2 (spells_toHex i)

/-- A negative literal with digits of either case, a character of two bytes, and one byte too many. -/
theorem codec_exact_either_case :
    (⟨255, 0, 0, 0, -2⟩ : Instruction).toHex = "ff00000000000000feffffff".toList ∧
      ofHex "FF00000000000000fEFFffff".toList = .ok ⟨255, 0, 0, 0, -2⟩ ∧
      ofHex "01é01234567890123456789x".toList = .error (.length 25) ∧
      ofHex "01é0123456789012345678x".toList = .error (.digit 'Ã') := by
  obtain ⟨-, -, -, hreads⟩ := codec_exact
  refine ⟨rfl, (hreads _ _).2 ?_, (hreads _ _).2 (.length (by decide)), (hreads _ _).2 ?_⟩
  · exact .record rfl (by simp [Hexadecimal.IsDigit]) rfl
  · have hbefore : ∀ d ∈ ([48, 49] : List UInt8), DigitByte d :=
      List.forall_mem_cons.2 ⟨by decide, List.forall_mem_singleton.2 (by decide)⟩
    exact @Reads.digit _ [48, 49] _ _ _ rfl rfl hbefore (by decide) rfl

end Instruction

end LadderMachine
