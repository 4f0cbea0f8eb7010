import LadderMachine.Bank
import LadderMachine.Text.Blank
import LadderMachine.Text.Decimal

/-!
# Lines of a container

A container opens with a signature line. Every later line is blank, a heading that selects a bank, a
line with the cycle time, some other sentinel, or data. Headings match exactly, without surrounding
space; the cycle line is recognised by its beginning.
-/

namespace LadderMachine.Container

def signature : List Char := ['$', '$', 'L', 'D', 'c', 'o', 'd', 'e']

def sentinelMark : List Char := ['$', '$']

def heading : Bank → List Char
  | .bit => ['$', '$', 'b', 'i', 't', 's']
  | .int => ['$', '$', 'i', 'n', 't', '1', '6', 's']

def cycleMark : List Char := ['$', '$', 'c', 'y', 'c', 'l', 'e']

inductive Line
  | blank
  | heading (bank : Bank)
  /-- A cycle line with the text behind its mark, trimmed. -/
  | cycle (suffix : List Char)
  /-- A sentinel without a known meaning. -/
  | sentinel
  | data
deriving DecidableEq

def Line.classify (text : List Char) : Line :=
  if Text.trim text = [] then .blank
  else if text = Container.heading .bit then .heading .bit
  else if text = Container.heading .int then .heading .int
  else match cycleMark.isPrefixOf? text with
    | some suffix => .cycle (Text.trim suffix)
    | none => if sentinelMark.isPrefixOf text then .sentinel else .data

/-- Cycle time in the suffix of a cycle line: none if the suffix is empty, and no answer if it is not
an unsigned 64-bit decimal. -/
def cycleTime? (suffix : List Char) : Option (Option UInt64) :=
  if suffix = [] then some none
  else (Decimal.word? suffix).map fun n => some (UInt64.ofNat n)

end LadderMachine.Container
