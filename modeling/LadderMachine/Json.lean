import LadderMachine.Text.Hexadecimal

/-!
# JSON documents

A strict reader for JSON: one value with nothing but space around it, no comments, no trailing commas
and no superfluous zeros. Object members keep their order and repetitions. Of numbers only the
unsigned integers are told apart from each other.
-/

namespace LadderMachine

inductive Json
  | null
  | bool (value : Bool)
  /-- A number written as digits only. -/
  | natural (value : Nat)
  /-- A number with a sign, a fraction or an exponent. -/
  | otherNumber
  | string (value : String)
  | array (items : List Json)
  | object (members : List (String × Json))

namespace Json

def skipSpace (cs : List Char) : List Char :=
  cs.dropWhile fun c => c == ' ' || c == '\t' || c == '\n' || c == '\r'

/-- Splits off a run of at least one digit. -/
def readDigits? (cs : List Char) : Option (List Char × List Char) :=
  let digits := cs.takeWhile Char.isDigit
  if digits = [] then none else some (digits, cs.dropWhile Char.isDigit)

/-- Reads the fraction of a number; answers whether there was one. -/
def readFraction? : List Char → Option (Bool × List Char)
  | '.' :: cs => (readDigits? cs).map fun r => (true, r.2)
  | cs => some (false, cs)

def dropSign : List Char → List Char
  | '+' :: cs => cs
  | '-' :: cs => cs
  | cs => cs

/-- Reads the exponent of a number; answers whether there was one. -/
def readExponent? : List Char → Option (Bool × List Char)
  | c :: cs =>
    if c = 'e' ∨ c = 'E' then (readDigits? (dropSign cs)).map fun r => (true, r.2)
    else some (false, c :: cs)
  | [] => some (false, [])

def readUnsigned? (cs : List Char) : Option (Json × List Char) := do
  let (digits, rest) ← readDigits? cs
  if digits.head? = some '0' ∧ digits ≠ ['0'] then none
  let (fraction, rest) ← readFraction? rest
  let (exponent, rest) ← readExponent? rest
  let number := if fraction || exponent then otherNumber else natural (Nat.ofDigitChars 10 digits 0)
  some (number, rest)

def readNumber? : List Char → Option (Json × List Char)
  | '-' :: cs => (readUnsigned? cs).map fun r => (otherNumber, r.2)
  | cs => readUnsigned? cs

def hexValue? (c : Char) : Option Nat :=
  if c.toNat < 0x80 then Hexadecimal.digit? (UInt8.ofNat c.toNat) else none

def unit? (a b c d : Char) : Option Nat := do
  some (((← hexValue? a) * 16 + (← hexValue? b)) * 256 + (← hexValue? c) * 16 + (← hexValue? d))

def simpleEscape? : Char → Option Char
  | '"' => some '"'
  | '\\' => some '\\'
  | '/' => some '/'
  | 'b' => some '\x08'
  | 'f' => some '\x0c'
  | 'n' => some '\n'
  | 'r' => some '\r'
  | 't' => some '\t'
  | _ => none

/-- Reads the rest of a string after its opening quote. A code point beyond the first 65536 is
escaped as a pair of units. -/
def readString? : List Char → Option (List Char × List Char)
  | [] => none
  | '"' :: rest => some ([], rest)
  | '\\' :: 'u' :: a :: b :: c :: d :: '\\' :: 'u' :: e :: f :: g :: h :: rest =>
    match unit? a b c d with
    | none => none
    | some high =>
      if 0xD800 ≤ high ∧ high < 0xDC00 then
        match unit? e f g h with
        | none => none
        | some low =>
          if 0xDC00 ≤ low ∧ low < 0xE000 then
            (readString? rest).map fun r =>
              (Char.ofNat (0x10000 + (high - 0xD800) * 0x400 + (low - 0xDC00)) :: r.1, r.2)
          else none
      else if 0xDC00 ≤ high ∧ high < 0xE000 then none
      else (readString? ('\\' :: 'u' :: e :: f :: g :: h :: rest)).map fun r =>
        (Char.ofNat high :: r.1, r.2)
  | '\\' :: 'u' :: a :: b :: c :: d :: rest =>
    match unit? a b c d with
    | none => none
    | some n =>
      if 0xD800 ≤ n ∧ n < 0xE000 then none
      else (readString? rest).map fun r => (Char.ofNat n :: r.1, r.2)
  | '\\' :: c :: rest =>
    match simpleEscape? c with
    | none => none
    | some meant => (readString? rest).map fun r => (meant :: r.1, r.2)
  | c :: rest =>
    if c.toNat < 0x20 ∨ c = '\\' then none
    else (readString? rest).map fun r => (c :: r.1, r.2)

def expect? (word : List Char) (value : Json) (cs : List Char) : Option (Json × List Char) :=
  (word.isPrefixOf? cs).map fun rest => (value, rest)

mutual

/-- Reads one value. The first argument bounds the number of nested and successive readings; twice
the length of the text is always enough. -/
def readValue? : Nat → List Char → Option (Json × List Char)
  | 0, _ => none
  | fuel + 1, cs =>
    match skipSpace cs with
    | '"' :: rest => (readString? rest).map fun r => (string (String.ofList r.1), r.2)
    | '[' :: rest =>
      match skipSpace rest with
      | ']' :: rest => some (array [], rest)
      | rest => (readItems? fuel rest).map fun r => (array r.1, r.2)
    | '\x7b' :: rest =>
      match skipSpace rest with
      | '\x7d' :: rest => some (object [], rest)
      | rest => (readMembers? fuel rest).map fun r => (object r.1, r.2)
    | 'n' :: rest => expect? ['u', 'l', 'l'] null rest
    | 't' :: rest => expect? ['r', 'u', 'e'] (bool true) rest
    | 'f' :: rest => expect? ['a', 'l', 's', 'e'] (bool false) rest
    | rest => readNumber? rest

def readItems? : Nat → List Char → Option (List Json × List Char)
  | 0, _ => none
  | fuel + 1, cs =>
    match readValue? fuel cs with
    | none => none
    | some (item, rest) =>
      match skipSpace rest with
      | ']' :: rest => some ([item], rest)
      | ',' :: rest => (readItems? fuel rest).map fun r => (item :: r.1, r.2)
      | _ => none

def readMembers? : Nat → List Char → Option (List (String × Json) × List Char)
  | 0, _ => none
  | fuel + 1, cs =>
    match skipSpace cs with
    | '"' :: rest =>
      match readString? rest with
      | none => none
      | some (name, rest) =>
        match skipSpace rest with
        | ':' :: rest =>
          match readValue? fuel rest with
          | none => none
          | some (value, rest) =>
            let entry := (String.ofList name, value)
            match skipSpace rest with
            | '\x7d' :: rest => some ([entry], rest)
            | ',' :: rest => (readMembers? fuel rest).map fun r => (entry :: r.1, r.2)
            | _ => none
        | _ => none
    | _ => none

end

def parse? (text : String) : Option Json :=
  let cs := text.toList
  match readValue? (2 * cs.length + 2) cs with
  | some (value, rest) => if skipSpace rest = [] then some value else none
  | none => none

/-- The values of a record's fields in their order, missing ones as `none`. A record is an object
without foreign or repeated names, or an array whose items fill the fields from the first one on. -/
def fields? (names : List String) : Json → Option (List (Option Json))
  | object members =>
    if (members.all fun m => names.contains m.1) ∧
        names.all fun n => members.countP (·.1 == n) ≤ 1 then
      some (names.map fun n => (members.find? (·.1 == n)).map (·.2))
    else none
  | array items =>
    if items.length ≤ names.length then
      some (items.map some ++ List.replicate (names.length - items.length) none)
    else none
  | _ => none

def orDefault {α : Type} (read : Json → Option α) (default : α) : Option Json → Option α
  | none => some default
  | some value => read value

def bool? : Json → Option Bool
  | bool value => some value
  | _ => none

def word? : Json → Option Nat
  | natural n => if n < UInt64.size then some n else none
  | _ => none

def optionalWord? : Json → Option (Option Nat)
  | null => some none
  | value => (word? value).map some

end Json

end LadderMachine
