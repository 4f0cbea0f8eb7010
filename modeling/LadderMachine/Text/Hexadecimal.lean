/-!
# Hexadecimal numbers in text

Numbers are written in lower case, filled with zeros up to a least width. Digits are read from bytes
of text in either case.
-/

namespace LadderMachine.Hexadecimal

/-- Lower-case digits of `n`, at least `width` of them. -/
def digits (width n : Nat) : List Char := (Nat.toDigits 16 n).leftpad width '0'

def padded (width n : Nat) : String := String.ofList (digits width n)

def digit? (b : UInt8) : Option Nat :=
  let n := b.toNat
  if 0x30 ≤ n ∧ n ≤ 0x39 then some (n - 0x30)
  else if 0x61 ≤ n ∧ n ≤ 0x66 then some (n - 0x61 + 10)
  else if 0x41 ≤ n ∧ n ≤ 0x46 then some (n - 0x41 + 10)
  else none

def ofByte (b : UInt8) : List Char := [Nat.digitChar (b.toNat / 16), Nat.digitChar (b.toNat % 16)]

theorem digit?_lt {b : UInt8} {n : Nat} (h : digit? b = some n) : n < 16 := by
  simp only [digit?] at h
  split at h
  · simp only [Option.some.injEq] at h; omega
  · split at h
    · simp only [Option.some.injEq] at h; omega
    · split at h
      · simp only [Option.some.injEq] at h; omega
      · simp at h

end LadderMachine.Hexadecimal
