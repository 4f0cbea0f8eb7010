import LadderMachine.Operation
import LadderMachine.Text.Decimal
import LadderMachine.Text.Hexadecimal

/-!
# Disassembly

Each operation has one line of text. Operands are printed as 16-bit words in hexadecimal with at
least three digits, so a negative operand shows its two's complement. Conditionals read "unless",
because the jump is taken when the condition fails.
-/

namespace LadderMachine

def operandText (operand : Int16) : String := Hexadecimal.padded 3 operand.toUInt16.toNat

def cellText (bank : Bank) (operand : Int16) : String :=
  bank.label ++ "[" ++ operandText operand ++ "]"

def integerText (n : Int) : String := toString n

namespace Operation

def bitState (b : Bool) : String := if b then "set" else "clear"

def text : Operation → String
  | writeBit dst value => cellText .bit dst ++ " := " ++ (if value then "1" else "0")
  | copyBit dst src => cellText .bit dst ++ " := " ++ cellText .bit src
  | setLiteral dst value =>
    cellText .int dst ++ " := " ++ integerText value.toInt ++ " (0x" ++
      Hexadecimal.padded 4 value.toUInt32.toNat ++ ")"
  | setVariable dst src => cellText .int dst ++ " := " ++ cellText .int src
  | count dst .up => "(" ++ cellText .int dst ++ ")++"
  | count dst .down => "(" ++ cellText .int dst ++ ")--"
  | arithmetic kind dst lhs rhs =>
    cellText .int dst ++ " := " ++ cellText .int lhs ++ " " ++ kind.symbol.toString ++ " " ++
      cellText .int rhs
  | unlessBit bit expected target =>
    "unless (" ++ cellText .bit bit ++ " " ++ bitState expected ++ ") jump " ++ operandText target
  | unlessLiteral comparison lhs literal target =>
    "unless (" ++ cellText .int lhs ++ " " ++ comparison.symbol ++ " " ++
      integerText literal.toInt ++ ") jump " ++ operandText target
  | unlessCompare comparison lhs rhs target =>
    "unless (" ++ cellText .int lhs ++ " " ++ comparison.symbol ++ " " ++ cellText .int rhs ++
      ") jump " ++ operandText target
  | jump target => "jump " ++ operandText target
  | endOfProgram => "<end of program>"
  | marker kind tag => kind.mnemonic ++ " " ++ Decimal.padded 3 tag.toInt
  | unsupported code =>
    "Unsupported op (Peripheral) for interpretable target. INT_" ++ integerText code.toInt

end Operation

def Instruction.text (i : Instruction) : String := i.decode.text

end LadderMachine
