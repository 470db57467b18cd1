/-!
# Reading numerals

A numeral is an optional sign and decimal digits.  It is read from left to right into a bounded
range of integers, and the first character at which it fails says how: a character that is no digit
wins over a number that has left the range.

A decimal numeral may also have a point and a power of ten, or be a word for what no digits stand
for.
-/

namespace ReaderWriter.Number

inductive NumeralFault where
  | empty
  | invalidDigit
  | tooLarge
  | tooSmall
  deriving DecidableEq, Repr

namespace NumeralFault

def message : NumeralFault → String
  | .empty => "cannot parse integer from empty string"
  | .invalidDigit => "invalid digit found in string"
  | .tooLarge => "number too large to fit in target type"
  | .tooSmall => "number too small to fit in target type"

end NumeralFault

/-- Reads digits behind a number that is at most `bound` in size. -/
def readDigits (bound : Nat) (overflow : NumeralFault) : Nat → List Char → Except NumeralFault Nat
  | n, [] => .ok n
  | n, c :: cs =>
    if c.isDigit then
      let next := 10 * n + (c.toNat - '0'.toNat)
      if next ≤ bound then readDigits bound overflow next cs else .error overflow
    else .error .invalidDigit

/-- Reads a numeral without a minus sign that is at most `bound`. -/
def readNatural (bound : Nat) (text : String) : Except NumeralFault Nat :=
  match text.toList with
  | [] => .error .empty
  | ['+'] => .error .invalidDigit
  | '+' :: digits => readDigits bound .tooLarge 0 digits
  | digits => readDigits bound .tooLarge 0 digits

/-- Reads a signed numeral that fits into 64 bits. -/
def readInteger (text : String) : Except NumeralFault Int :=
  match text.toList with
  | [] => .error .empty
  | ['+'] => .error .invalidDigit
  | ['-'] => .error .invalidDigit
  | '+' :: digits => (readDigits (UInt64.size / 2 - 1) .tooLarge 0 digits).map Int.ofNat
  | '-' :: digits => (readDigits (UInt64.size / 2) .tooSmall 0 digits).map fun n => -Int.ofNat n
  | digits => (readDigits (UInt64.size / 2 - 1) .tooLarge 0 digits).map Int.ofNat

def dropSign (text : List Char) : List Char :=
  if text.head? == some '+' || text.head? == some '-' then text.tail else text

def areDigits (text : List Char) : Bool := !text.isEmpty && text.all Char.isDigit

/-- Digits with at most one point among them, and perhaps a power of ten. -/
def isUnsignedDecimal (text : List Char) : Bool :=
  let isMark (c : Char) : Bool := c == 'e' || c == 'E'
  let digits := text.takeWhile (!isMark ·)
  let power := text.dropWhile (!isMark ·)
  areDigits (digits.erase '.') && (power.isEmpty || areDigits (dropSign power.tail))

def isDecimal (text : String) : Bool :=
  let unsigned := dropSign text.toList
  ["inf", "infinity", "nan"].contains (String.ofList unsigned).toLower
    || isUnsignedDecimal unsigned

end ReaderWriter.Number
