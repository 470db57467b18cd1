import ReaderWriter.Number.Rounding

/-!
# Doubles in decimal

A finite double is `significand * 2 ^ exponent` up to its sign, so its decimal forms are matters of
exact arithmetic on natural numbers.  Two forms are used: two places, correctly rounded, and the
fewest digits that read back as the same double.
-/

namespace ReaderWriter.Number

inductive Double where
  | nan
  | infinite (negative : Bool)
  | finite (negative : Bool) (significand : Nat) (exponent : Int)
  deriving DecidableEq, Repr

namespace Double

def ofBits (bits : UInt64) : Double :=
  let word := bits.toNat
  let negative := word / Nat.pow 2 63 == 1
  let biased : Nat := word / Nat.pow 2 52 % Nat.pow 2 11
  let fraction := word % Nat.pow 2 52
  if biased = 2047 then
    if fraction = 0 then .infinite negative else .nan
  else if biased = 0 then .finite negative fraction (-1074)
  else .finite negative (Nat.pow 2 52 + fraction) ((biased : Int) - 1075)

def ofFloat (x : Float) : Double := ofBits x.toBits

/-- A positive number as numerator and denominator. -/
def quotient (significand : Nat) (exponent : Int) : Nat × Nat :=
  if exponent < 0 then (significand, Nat.pow 2 exponent.natAbs)
  else (significand * Nat.pow 2 exponent.natAbs, 1)

def sign (negative : Bool) : String := if negative then "-" else ""

/-- With two places: the nearest such number, a half to the even neighbour. -/
def twoPlaces : Double → String
  | .nan => "NaN"
  | .infinite negative => sign negative ++ "inf"
  | .finite negative significand exponent =>
    let (num, den) := quotient significand exponent
    sign negative ++ hundredthsText (roundHalfEven (num * 100) den)

/-- A decimal number `digits * 10 ^ exponent`. -/
structure Decimal where
  digits : Nat
  exponent : Int
  deriving DecidableEq, Repr

/-- The numbers strictly between these bounds, or on one of them if `closed`, over a common
denominator. -/
structure Interval where
  low : Nat
  high : Nat
  den : Nat
  closed : Bool

namespace Interval

def contains (i : Interval) (d : Decimal) : Bool :=
  let (num, den) :=
    if d.exponent < 0 then (d.digits, Nat.pow 10 d.exponent.natAbs)
    else (d.digits * Nat.pow 10 d.exponent.natAbs, 1)
  let value := num * i.den
  if i.closed then i.low * den ≤ value && value ≤ i.high * den
  else i.low * den < value && value < i.high * den

end Interval

/-- The numbers that round to `significand * 2 ^ exponent`.  The one below a power of two is nearer
than the one above it. -/
def rounding (significand : Nat) (exponent : Int) : Interval :=
  let (scale, den) := quotient 1 (exponent - 2)
  let below := if significand = Nat.pow 2 52 ∧ exponent ≠ -1074 then 1 else 2
  { low := (4 * significand - below) * scale
    high := (4 * significand + 2) * scale
    den
    closed := significand % 2 == 0 }

/-- The decimal exponent of the leading digit of `num / den`, which is positive. -/
def leading (num den : Nat) : Int :=
  if den ≤ num then ((toString (num / den)).length - 1 : Nat)
  else
    match (List.range 400).find? fun places => den ≤ num * Nat.pow 10 places with
    | some places => -places
    | none => 0

/-- The two multiples of a power of ten around `num / den`, the nearer one first and of two equally
near ones the greater one. -/
def neighbours (num den : Nat) (exponent : Int) : List Decimal :=
  let (num, den) :=
    if exponent < 0 then (num * Nat.pow 10 exponent.natAbs, den)
    else (num, den * Nat.pow 10 exponent.natAbs)
  let floor := num / den
  if 2 * (num % den) < den then [⟨floor, exponent⟩, ⟨floor + 1, exponent⟩]
  else [⟨floor + 1, exponent⟩, ⟨floor, exponent⟩]

/-- The fewest digits that read back as `significand * 2 ^ exponent`, which is positive, and of
those the nearest. -/
def shortest (significand : Nat) (exponent : Int) : Decimal :=
  let (num, den) := quotient significand exponent
  let interval := rounding significand exponent
  let top := leading num den
  let grids := (List.range 17).map fun (more : Nat) => top - more
  match grids.findSome? fun grid => (neighbours num den grid).find? interval.contains with
  | some decimal => decimal
  | none => ⟨significand, 0⟩

/-- The digits before and behind the point, for a decimal exponent that is not positive. -/
def positional (d : Decimal) : String :=
  if d.exponent < 0 then
    let places := d.exponent.natAbs
    let digits := toString d.digits
    let padded := "".pushn '0' (places + 1 - digits.length) ++ digits
    let whole := padded.length - places
    String.ofList (padded.toList.take whole) ++ "." ++ String.ofList (padded.toList.drop whole)
  else toString (d.digits * Nat.pow 10 d.exponent.natAbs) ++ ".0"

/-- One digit, the others behind a point, and the power of ten. -/
def scientific (d : Decimal) : String :=
  let digits := (toString d.digits).toList
  let kept := (digits.reverse.dropWhile (· == '0')).reverse
  let power := d.exponent + (digits.length - 1 : Nat)
  let fraction := if kept.length ≤ 1 then "" else "." ++ String.ofList kept.tail
  String.ofList (kept.take 1) ++ fraction ++ "e" ++ toString power

/-- The fewest digits that read back: positional from `10 ^ -4` up to below `10 ^ 16`, where there
is always a digit behind the point, and with a power of ten elsewhere. -/
def shortestText : Double → String
  | .nan => "NaN"
  | .infinite negative => sign negative ++ "inf"
  | .finite negative significand exponent =>
    if significand = 0 then sign negative ++ "0.0"
    else
      let (num, den) := quotient significand exponent
      let decimal := shortest significand exponent
      let inRange := den ≤ num * Nat.pow 10 4 ∧ num < den * Nat.pow 10 16
      sign negative ++ if inRange then positional decimal else scientific decimal

end Double

end ReaderWriter.Number
