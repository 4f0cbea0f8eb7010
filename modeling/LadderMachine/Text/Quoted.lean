import LadderMachine.Text.Unprinted

/-!
# Quoted text

A quoted text or character stands between quotes of its kind. The quote itself, the backslash and the
four common control characters have a two-character form, other characters without a printed form are
given by their code point, and everything else stands for itself.
-/

namespace LadderMachine.Text

/-- Form of one character inside quotes of the given kind. -/
def escaped (quote c : Char) : List Char :=
  if c = quote ∨ c = '\\' then ['\\', c]
  else if c = '\x00' then ['\\', '0']
  else if c = '\t' then ['\\', 't']
  else if c = '\n' then ['\\', 'n']
  else if c = '\r' then ['\\', 'r']
  else if isUnprinted c then ['\\', 'u', '\x7b'] ++ Nat.toDigits 16 c.toNat ++ ['\x7d']
  else [c]

def quoted (text : String) : String :=
  String.ofList (['"'] ++ text.toList.flatMap (escaped '"') ++ ['"'])

def quotedChar (c : Char) : String := String.ofList (['\x27'] ++ escaped '\x27' c ++ ['\x27'])

end LadderMachine.Text
