import ReaderWriter.Number.Rounding

/-!
# Spans of time

A span is written in the largest of the units s, ms, µs and ns that leaves a nonzero whole part, and
in ns when it is empty.  Rounding that carries keeps the unit.
-/

namespace ReaderWriter.Number

structure Duration where
  nanoseconds : Nat
  deriving DecidableEq, Repr

inductive TimeUnit where
  | nanosecond
  | microsecond
  | millisecond
  | second
  deriving DecidableEq, Repr

namespace TimeUnit

/-- The number of nanoseconds in the unit. -/
def size : TimeUnit → Nat
  | .nanosecond => 1
  | .microsecond => 1_000
  | .millisecond => 1_000_000
  | .second => 1_000_000_000

def symbol : TimeUnit → String
  | .nanosecond => "ns"
  | .microsecond => "µs"
  | .millisecond => "ms"
  | .second => "s"

theorem size_pos (unit : TimeUnit) : 0 < unit.size := by
  cases unit <;> decide

end TimeUnit

namespace Duration

def ofMilliseconds (n : Nat) : Duration := ⟨n * TimeUnit.millisecond.size⟩

/-- Seconds and nanoseconds, as long as the whole seconds fit into 64 bits. -/
def ofSeconds? (seconds nanoseconds : Nat) : Option Duration :=
  if seconds + nanoseconds / TimeUnit.second.size < UInt64.size then
    some ⟨seconds * TimeUnit.second.size + nanoseconds⟩
  else none

def overflowText : String := "overflow in Duration::new"

/-- The largest unit that leaves a nonzero whole part. -/
def unit (d : Duration) : TimeUnit :=
  if TimeUnit.second.size ≤ d.nanoseconds then .second
  else if TimeUnit.millisecond.size ≤ d.nanoseconds then .millisecond
  else if TimeUnit.microsecond.size ≤ d.nanoseconds then .microsecond
  else .nanosecond

/-- The hundredths of the unit nearest to the span. -/
def hundredths (d : Duration) : Nat :=
  roundHalfEven (d.nanoseconds * 100) d.unit.size

def text (d : Duration) : String :=
  hundredthsText d.hundredths ++ d.unit.symbol

def exactText (d : Duration) : String :=
  let size := d.unit.size
  let places := (toString size).length - 1
  let digits := (toString (d.nanoseconds % size)).toList
  let padded := List.replicate (places - digits.length) '0' ++ digits
  let kept := (padded.reverse.dropWhile (· == '0')).reverse
  let fraction := if kept.isEmpty then "" else "." ++ String.ofList kept
  toString (d.nanoseconds / size) ++ fraction ++ d.unit.symbol

end Duration

end ReaderWriter.Number
