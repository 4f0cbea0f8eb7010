/-!
# Ratios in double precision

Rounding of natural numbers and of their quotients to binary floating point with 53 significant bits,
the nearest value first and a tie going to the even neighbour. The numbers here are far from both ends
of the exponent range, so every rounded value is zero or has exactly 53 bits.
-/

namespace LadderMachine

/-- Nearest natural number to a quotient; a tie goes to the even neighbour. -/
def roundDiv (num den : Nat) : Nat :=
  let q := num / den
  let r := num % den
  if 2 * r < den then q else if den < 2 * r then q + 1 else q + q % 2

/-- The value `mantissa * 2 ^ exponent`. -/
structure Binary64 where
  mantissa : Nat
  exponent : Int
deriving DecidableEq

namespace Binary64

def zero : Binary64 := ⟨0, 0⟩

def scale (num den : Nat) (exponent : Int) : Nat × Nat :=
  if 0 ≤ exponent then (num, den * Nat.pow 2 exponent.toNat) else (num * Nat.pow 2 (-exponent).toNat, den)

def roundedAt (num den : Nat) (exponent : Int) : Binary64 :=
  let s := scale num den exponent
  let m := roundDiv s.1 s.2
  if m = Nat.pow 2 53 then ⟨Nat.pow 2 52, exponent + 1⟩ else ⟨m, exponent⟩

def ofQuotient (num den : Nat) : Binary64 :=
  if num = 0 ∨ den = 0 then zero
  else
    let exponent : Int := num.log2 - den.log2 - 52
    let s := scale num den exponent
    -- The exponent puts the quotient below `2 ^ 53`, but perhaps not as high as `2 ^ 52`.
    if s.1 < Nat.pow 2 52 * s.2 then roundedAt num den (exponent - 1) else roundedAt num den exponent

def ofNat (n : Nat) : Binary64 := ofQuotient n 1

def div (a b : Binary64) : Binary64 :=
  let q := ofQuotient a.mantissa b.mantissa
  if q = zero then zero else { q with exponent := q.exponent + a.exponent - b.exponent }

/-- Encoding with eleven bits of biased exponent and 52 bits of fraction. -/
def bits (a : Binary64) : Nat :=
  if a.mantissa = 0 then 0
  else (a.exponent + 52 + 1023).toNat * Nat.pow 2 52 + (a.mantissa - Nat.pow 2 52)

def hundredths (a : Binary64) : String :=
  let s := if 0 ≤ a.exponent then (a.mantissa * 100 * Nat.pow 2 a.exponent.toNat, 1)
    else (a.mantissa * 100, Nat.pow 2 (-a.exponent).toNat)
  let n := roundDiv s.1 s.2
  toString (n / 100) ++ "." ++ toString (n % 100 / 10) ++ toString (n % 10)

end Binary64

end LadderMachine
