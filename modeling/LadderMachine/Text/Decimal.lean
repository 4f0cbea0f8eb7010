/-!
# Decimal numbers in text

Written decimals have no sign and no superfluous zeros (`Nat.toDigits 10`). Reading accepts any
nonempty run of the digits `0` to `9`; an unsigned 64-bit number may also start with a plus sign and
must lie below two to the power 64.
-/

namespace LadderMachine.Decimal

/-- Value of a nonempty text that consists of the digits `0` to `9`. -/
def value? (cs : List Char) : Option Nat :=
  if cs ≠ [] ∧ cs.all Char.isDigit then some (Nat.ofDigitChars 10 cs 0) else none

def dropPlus : List Char → List Char
  | '+' :: cs => cs
  | cs => cs

def word? (cs : List Char) : Option Nat := (value? (dropPlus cs)).filter (· < UInt64.size)

/-- A signed decimal of at least `width` characters, filled with zeros after the sign. -/
def padded (width : Nat) (n : Int) : String :=
  let sign := if n < 0 then ['-'] else []
  String.ofList (sign ++ (Nat.toDigits 10 n.natAbs).leftpad (width - sign.length) '0')

theorem value?_toDigits (n : Nat) : value? (Nat.toDigits 10 n) = some n := by
  have h : (Nat.toDigits 10 n).all Char.isDigit = true :=
    List.all_eq_true.2 fun c hc => Nat.isDigit_of_mem_toDigits (by decide) (by decide) hc
  simp [value?, h, Nat.ofDigitChars_ten_toDigits]

theorem dropPlus_of_isDigit (cs : List Char) (h : ∀ c ∈ cs, c.isDigit) : dropPlus cs = cs := by
  cases cs with
  | nil => rfl
  | cons c r =>
    unfold dropPlus
    split
    · next heq =>
      have hc := h c (by simp)
      simp only [List.cons.injEq] at heq
      rw [heq.1] at hc
      exact absurd hc (by decide)
    · rfl

theorem word?_toDigits (n : Nat) :
    word? (Nat.toDigits 10 n) = if n < UInt64.size then some n else none := by
  rw [word?, dropPlus_of_isDigit _ fun c hc =>
    Nat.isDigit_of_mem_toDigits (by decide) (by decide) hc, value?_toDigits]
  simp [Option.filter]

end LadderMachine.Decimal
