import LadderMachine.Proofs.Text.Fields
import LadderMachine.Proofs.Text.Numerals

/-!
# The text of an operation

The text of an operation is a row of words with a blank between any two. No word holds a blank itself,
so the text determines its words, and the words determine the operation: operations of two kinds differ
in the number of their words or in one that is the same for all operations of its kind, and within a
kind each field can be read off a word of its own.
-/

namespace LadderMachine

/-- A text without blank characters. -/
def Solid (w : String) : Prop := ∀ c ∈ w.toList, Text.isBlank c = false

instance (w : String) : Decidable (Solid w) :=
  List.decidableBAll (fun c => Text.isBlank c = false) w.toList

def bitDigit (b : Bool) : String := if b then "1" else "0"

/-- How a counter that moves in this direction is marked. -/
def Direction.mark : Direction → String
  | up => "++"
  | down => "--"

section Fields

variable {a b : Int16} {m n : Int} {v w : String}

@[simp] theorem Hexadecimal.padded_inj {width k l : Nat} :
    Hexadecimal.padded width k = Hexadecimal.padded width l ↔ k = l := by
  rw [padded, padded, String.ofList_inj]
  exact ⟨digits_inj, fun h => h ▸ rfl⟩

@[simp] theorem Decimal.padded_inj {width : Nat} :
    Decimal.padded width m = Decimal.padded width n ↔ m = n := by
  constructor
  · intro h
    rw [← integer_padded width m, h, integer_padded]
  · rintro rfl
    rfl

@[simp] theorem toNat_toUInt16_inj : a.toUInt16.toNat = b.toUInt16.toNat ↔ a = b := by
  rw [UInt16.toNat_inj]
  exact ⟨fun h => by rw [← Int16.toInt16_toUInt16 a, h, Int16.toInt16_toUInt16], fun h => h ▸ rfl⟩

@[simp] theorem toNat_toUInt32_inj {k l : Int32} :
    k.toUInt32.toNat = l.toUInt32.toNat ↔ k = l := by
  rw [UInt32.toNat_inj]
  exact ⟨fun h => by rw [← Int32.toInt32_toUInt32 k, h, Int32.toInt32_toUInt32], fun h => h ▸ rfl⟩

@[simp] theorem operandText_inj : operandText a = operandText b ↔ a = b := by
  rw [operandText, operandText, Hexadecimal.padded_inj, toNat_toUInt16_inj]

@[simp] theorem integerText_inj : integerText m = integerText n ↔ m = n := by
  rw [← Decimal.padded_zero, ← Decimal.padded_zero, Decimal.padded_inj]

theorem toList_cellText (bank : Bank) (operand : Int16) : (cellText bank operand).toList =
    bank.label.toList ++ '[' :: ((operandText operand).toList ++ [']']) := by
  simp [cellText]

@[simp] theorem cellText_inj {bank other : Bank} :
    cellText bank a = cellText other b ↔ bank = other ∧ a = b := by
  rw [← String.toList_inj, toList_cellText, toList_cellText]
  cases bank <;> cases other <;> simp [Bank.label, String.toList_inj]

/-- The text of a cell ends in a bracket, which no other field holds. -/
@[simp] theorem cellText_ne {bank : Bank} (h : ']' ∉ w.toList) : cellText bank a ≠ w := by
  rintro rfl
  exact h (by simp [toList_cellText])

@[simp] theorem ne_cellText {bank : Bank} (h : ']' ∉ w.toList) : w ≠ cellText bank a :=
  (cellText_ne h).symm

@[simp] theorem bracket_not_mem_integerText : ']' ∉ (integerText n).toList := by
  rw [← Decimal.padded_zero]
  intro h
  rcases Decimal.isDigit_of_mem_padded h with h | h
  · exact absurd h (by decide)
  · exact absurd h (by decide)

@[simp] theorem bracket_not_mem_bitDigit {b : Bool} : ']' ∉ (bitDigit b).toList := by
  cases b <;> decide

@[simp] theorem bitDigit_inj {a b : Bool} : bitDigit a = bitDigit b ↔ a = b := by
  cases a <;> cases b <;> decide

@[simp] theorem bitState_inj {a b : Bool} :
    Operation.bitState a = Operation.bitState b ↔ a = b := by
  cases a <;> cases b <;> decide

@[simp] theorem Direction.mark_inj {a b : Direction} : a.mark = b.mark ↔ a = b := by
  cases a <;> cases b <;> decide

@[simp] theorem Arithmetic.symbol_inj {a b : Arithmetic} : a.symbol = b.symbol ↔ a = b := by
  cases a <;> cases b <;> decide

@[simp] theorem Comparison.symbol_inj {a b : Comparison} : a.symbol = b.symbol ↔ a = b := by
  cases a <;> cases b <;> decide

@[simp] theorem Marker.mnemonic_inj {a b : Marker} : a.mnemonic = b.mnemonic ↔ a = b := by
  cases a <;> cases b <;> decide

@[simp] theorem Marker.mnemonic_ne_jump {k : Marker} : k.mnemonic ≠ "jump" := by
  cases k <;> decide

@[simp] theorem Marker.jump_ne_mnemonic {k : Marker} : "jump" ≠ k.mnemonic :=
  mnemonic_ne_jump.symm

@[simp] theorem counter_inj {d e : Direction} :
    "(" ++ cellText .int a ++ ")" ++ d.mark = "(" ++ cellText .int b ++ ")" ++ e.mark ↔
      a = b ∧ d = e := by
  constructor
  · intro h
    have hlen : d.mark.toList.length = e.mark.toList.length := by
      cases d <;> cases e <;> rfl
    rw [← String.toList_inj, String.toList_append, String.toList_append (t := e.mark)] at h
    obtain ⟨hcell, hmark⟩ := List.append_inj' h hlen
    exact ⟨by simpa [String.toList_inj] using hcell, by simpa [String.toList_inj] using hmark⟩
  · rintro ⟨rfl, rfl⟩
    rfl

@[simp] theorem solid_append : Solid (v ++ w) ↔ Solid v ∧ Solid w := by
  simp only [Solid, String.toList_append, List.mem_append, or_imp, forall_and]

theorem isBlank_eq_false_of_isDigit {c : Char} (h : Hexadecimal.IsDigit c) :
    Text.isBlank c = false := by
  have hn := Hexadecimal.isDigit_iff.1 h
  by_contra hb
  have hb' := Text.toNat_of_isBlank (Bool.not_eq_false _ ▸ hb)
  omega

@[simp] theorem solid_hexadecimal (width k : Nat) : Solid (Hexadecimal.padded width k) := by
  intro c hc
  rw [Hexadecimal.padded, String.toList_ofList] at hc
  exact isBlank_eq_false_of_isDigit (Hexadecimal.isDigit_of_mem_digits hc)

@[simp] theorem solid_decimal (width : Nat) (n : Int) : Solid (Decimal.padded width n) := by
  intro c hc
  rcases Decimal.isDigit_of_mem_padded hc with rfl | hc
  · decide
  · exact Text.isBlank_of_isDigit c hc

@[simp] theorem solid_integerText (n : Int) : Solid (integerText n) :=
  Decimal.padded_zero n ▸ solid_decimal 0 n

@[simp] theorem solid_operandText (operand : Int16) : Solid (operandText operand) :=
  solid_hexadecimal 3 _

@[simp] theorem solid_cellText (bank : Bank) (operand : Int16) : Solid (cellText bank operand) := by
  simp only [cellText, solid_append, solid_operandText, and_true]
  cases bank <;> decide

@[simp] theorem solid_bitDigit (b : Bool) : Solid (bitDigit b) := by
  cases b <;> decide

@[simp] theorem solid_bitState (b : Bool) : Solid (Operation.bitState b) := by
  cases b <;> decide

@[simp] theorem Direction.solid_mark (d : Direction) : Solid d.mark := by
  cases d <;> decide

@[simp] theorem Arithmetic.solid_symbol (k : Arithmetic) : Solid (String.singleton k.symbol) := by
  cases k <;> decide

@[simp] theorem Comparison.solid_symbol (c : Comparison) : Solid c.symbol := by
  cases c <;> decide

@[simp] theorem Marker.solid_mnemonic (k : Marker) : Solid k.mnemonic := by
  cases k <;> decide

end Fields

/-- A row of words consists of their characters and of those between them. -/
theorem of_mem_intercalate {sep : List Char} {ws : List (List Char)} {c : Char}
    (h : c ∈ sep.intercalate ws) : c ∈ sep ∨ ∃ w ∈ ws, c ∈ w := by
  induction ws with
  | nil => exact absurd h (by simp)
  | cons w rest ih =>
    cases rest with
    | nil => exact .inr ⟨w, by simp, by simpa using h⟩
    | cons v rest =>
      rw [List.intercalate_cons_cons, List.append_assoc, List.mem_append, List.mem_append] at h
      rcases h with h | h | h
      · exact .inr ⟨w, by simp, h⟩
      · exact .inl h
      · obtain hsep | ⟨u, hu, hc⟩ := ih h
        · exact .inl hsep
        · exact .inr ⟨u, List.mem_cons_of_mem _ hu, hc⟩

section Rows

variable {vs ws : List String}

/-- Words without blank characters can be told from a row in which spaces stand between them. -/
theorem eq_of_intercalate_eq (hv : ∀ w ∈ vs, Solid w) (hw : ∀ w ∈ ws, Solid w) (hvne : vs ≠ [])
    (hwne : ws ≠ [])
    (h : [' '].intercalate (vs.map String.toList) = [' '].intercalate (ws.map String.toList)) :
    vs = ws := by
  have hblank {us : List String} (hu : ∀ w ∈ us, Solid w) : ∀ w ∈ us.map String.toList, ' ' ∉ w := by
    intro w hw
    obtain ⟨v, hv, rfl⟩ := List.mem_map.1 hw
    intro hc
    exact absurd (hu v hv ' ' hc) (by decide)
  have hwords : vs.map String.toList = ws.map String.toList := by
    rw [← List.splitOn_intercalate ' ' (hblank hv) (by simpa using hvne), h,
      List.splitOn_intercalate ' ' (hblank hw) (by simpa using hwne)]
  exact (List.map_inj_right fun _ _ => String.toList_injective).1 hwords

/-- Spaces are the only blank characters in such a row. -/
theorem eq_space_of_mem_intercalate (hw : ∀ w ∈ ws, Solid w) {c : Char}
    (h : c ∈ [' '].intercalate (ws.map String.toList)) (hb : Text.isBlank c = true) : c = ' ' := by
  rcases of_mem_intercalate h with h | ⟨w, hmem, h⟩
  · exact List.mem_singleton.1 h
  · obtain ⟨v, hv, rfl⟩ := List.mem_map.1 hmem
    exact absurd hb (by simp [hw v hv c h])

end Rows

namespace Operation

variable {a b : Operation}

/-- The words of the text of an operation. -/
def words : Operation → List String
  | writeBit dst value => [cellText .bit dst, ":=", bitDigit value]
  | copyBit dst src => [cellText .bit dst, ":=", cellText .bit src]
  | setLiteral dst value =>
    [cellText .int dst, ":=", integerText value.toInt,
      "(0x" ++ Hexadecimal.padded 4 value.toUInt32.toNat ++ ")"]
  | setVariable dst src => [cellText .int dst, ":=", cellText .int src]
  | count dst direction => ["(" ++ cellText .int dst ++ ")" ++ direction.mark]
  | arithmetic kind dst lhs rhs =>
    [cellText .int dst, ":=", cellText .int lhs, kind.symbol.toString, cellText .int rhs]
  | unlessBit bit expected target =>
    ["unless", "(" ++ cellText .bit bit, bitState expected ++ ")", "jump", operandText target]
  | unlessLiteral comparison lhs literal target =>
    ["unless", "(" ++ cellText .int lhs, comparison.symbol, integerText literal.toInt ++ ")", "jump",
      operandText target]
  | unlessCompare comparison lhs rhs target =>
    ["unless", "(" ++ cellText .int lhs, comparison.symbol, cellText .int rhs ++ ")", "jump",
      operandText target]
  | jump target => ["jump", operandText target]
  | endOfProgram => ["<end", "of", "program>"]
  | marker kind tag => [kind.mnemonic, Decimal.padded 3 tag.toInt]
  | unsupported code =>
    ["Unsupported", "op", "(Peripheral)", "for", "interpretable", "target.",
      "INT_" ++ integerText code.toInt]

theorem toList_text (op : Operation) :
    op.text.toList = [' '].intercalate (op.words.map String.toList) := by
  delta text
  cases op with
  | count dst direction => cases direction <;> simp [words, Direction.mark]
  | _ => simp [words, bitDigit]

theorem solid_words (op : Operation) : ∀ w ∈ op.words, Solid w := by
  cases op <;> simp +decide [words]

theorem words_ne_nil (op : Operation) : op.words ≠ [] := by
  cases op <;> simp [words]

/-- Words that are the same in all operations of a kind, and the number of words, tell the kinds apart;
the other words give the fields. -/
theorem words_inj : a.words = b.words ↔ a = b := by
  cases a <;> cases b <;> simp [words, Int16.toInt_inj, Int32.toInt_inj, and_left_comm]

theorem text_inj (h : a.text = b.text) : a = b := by
  have hrow := congrArg String.toList h
  rw [toList_text, toList_text] at hrow
  exact words_inj.1 (eq_of_intercalate_eq a.solid_words b.solid_words a.words_ne_nil b.words_ne_nil hrow)

theorem feed_not_mem_text (op : Operation) : '\n' ∉ op.text.toList := by
  intro h
  rw [toList_text] at h
  exact absurd (eq_space_of_mem_intercalate op.solid_words h (by decide)) (by decide)

end Operation

end LadderMachine
