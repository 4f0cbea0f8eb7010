import LadderMachine.Instruction
import LadderMachine.Text.Hexadecimal

/-!
# Encoded instruction records

A record is twelve bytes: the code and the three operands as little-endian 16-bit words, then the
literal as a little-endian 32-bit word, all in two's complement. As text it is 24 hexadecimal digits,
two a byte with the high digit first, written in lower case and read in either case.
-/

namespace LadderMachine

namespace Word

/-- Byte number `i` of a number, the least significant one being number 0. -/
def byte (n i : Nat) : UInt8 := UInt8.ofNat (n / Nat.pow 256 i)

def ofTwo (b₀ b₁ : UInt8) : Int16 := (UInt16.ofNat (b₀.toNat + 256 * b₁.toNat)).toInt16

def ofFour (b₀ b₁ b₂ b₃ : UInt8) : Int32 :=
  (UInt32.ofNat (b₀.toNat + 0x100 * b₁.toNat + 0x10000 * b₂.toNat + 0x1000000 * b₃.toNat)).toInt32

end Word

inductive RecordError
  /-- The text does not have 24 bytes; carries their number. -/
  | length (actual : Nat)
  /-- The first byte that is not a hexadecimal digit, as the character of that number. -/
  | digit (character : Char)
deriving DecidableEq

namespace Instruction

def toBytes (i : Instruction) : Vector UInt8 12 :=
  let code := i.code.toUInt16.toNat
  let first := i.first.toUInt16.toNat
  let second := i.second.toUInt16.toNat
  let third := i.third.toUInt16.toNat
  let literal := i.literal.toUInt32.toNat
  #v[Word.byte code 0, Word.byte code 1, Word.byte first 0, Word.byte first 1,
    Word.byte second 0, Word.byte second 1, Word.byte third 0, Word.byte third 1,
    Word.byte literal 0, Word.byte literal 1, Word.byte literal 2, Word.byte literal 3]

def ofBytes (b : Vector UInt8 12) : Instruction where
  code := Word.ofTwo b[0] b[1]
  first := Word.ofTwo b[2] b[3]
  second := Word.ofTwo b[4] b[5]
  third := Word.ofTwo b[6] b[7]
  literal := Word.ofFour b[8] b[9] b[10] b[11]

def toHex (i : Instruction) : List Char := i.toBytes.toList.flatMap Hexadecimal.ofByte

/-- Reads a record from text. Its length is counted in UTF-8 bytes, and a byte beyond ASCII is reported
as the character with that number. -/
def ofHex (text : List Char) : Except RecordError Instruction :=
  let bytes := text.flatMap String.utf8EncodeChar
  if bytes.length ≠ 24 then .error (.length bytes.length)
  else match bytes.find? fun b => (Hexadecimal.digit? b).isNone with
    | some b => .error (.digit (Char.ofNat b.toNat))
    | none =>
      let digit (n : Nat) := (Hexadecimal.digit? (bytes.getD n 0)).getD 0
      .ok (ofBytes (Vector.ofFn fun n => UInt8.ofNat (16 * digit (2 * n) + digit (2 * n + 1))))

end Instruction

end LadderMachine
