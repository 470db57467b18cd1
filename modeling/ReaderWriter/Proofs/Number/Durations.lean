import Mathlib.Algebra.Order.Field.Rat
import Mathlib.Tactic.Linarith
import ReaderWriter.Number.Duration
import ReaderWriter.Proofs.Number.Numerals

/-!
# Times that are read back

A span of time is shown as a number with two places and a unit.  Read back as number times unit it
is off by at most half a hundredth of the unit, and longer spans are not read back as shorter ones.
Within a unit this is the monotonicity of rounding.  Between two units there is the size of the
larger one: it is shown exactly in both, and it stands between the two spans.
-/

namespace ReaderWriter.Number

/-! ## Rounding -/

theorem div_le_roundHalfEven (num den : Nat) : num / den ≤ roundHalfEven num den := by
  unfold roundHalfEven
  simp only
  split_ifs <;> omega

theorem roundHalfEven_le_succ (num den : Nat) : roundHalfEven num den ≤ num / den + 1 := by
  unfold roundHalfEven
  simp only
  split_ifs <;> omega

theorem roundHalfEven_mono {num later : Nat} (hle : num ≤ later) (den : Nat) :
    roundHalfEven num den ≤ roundHalfEven later den := by
  rcases (Nat.div_le_div_right (c := den) hle).eq_or_lt with hsame | hless
  · have hdiv := Nat.div_add_mod num den
    have hdiv' := Nat.div_add_mod later den
    unfold roundHalfEven
    simp only
    rw [hsame] at hdiv ⊢
    split_ifs <;> omega
  · exact (roundHalfEven_le_succ num den).trans (hless.trans_le (div_le_roundHalfEven later den))

theorem roundHalfEven_mul (n : Nat) {den : Nat} (hden : 0 < den) :
    roundHalfEven (n * den) den = n := by
  unfold roundHalfEven
  simp [Nat.mul_div_cancel n hden, hden]

theorem toList_hundredthsText (hundredths : Nat) :
    (hundredthsText hundredths).toList = (toString (hundredths / 100)).toList ++
      ['.', (hundredths % 100 / 10).digitChar, (hundredths % 100 % 10).digitChar] := by
  have htenths : (hundredths % 100 / 10).repr.toList = [(hundredths % 100 / 10).digitChar] := by
    rw [Nat.toList_repr, Nat.toDigits_of_lt_base (by omega)]
  have hrest : (hundredths % 100 % 10).repr.toList = [(hundredths % 100 % 10).digitChar] := by
    rw [Nat.toList_repr, Nat.toDigits_of_lt_base (by omega)]
  simp only [hundredthsText, Nat.toString_eq_repr, String.toList_append, htenths, hrest]
  simp

/-! ## Reading a time -/

namespace TimeUnit

def all : List TimeUnit := [.nanosecond, .microsecond, .millisecond, .second]

def ofSymbol? (symbol : String) : Option TimeUnit :=
  all.find? (·.symbol == symbol)

theorem ofSymbol?_symbol (unit : TimeUnit) : ofSymbol? unit.symbol = some unit := by
  cases unit <;> decide

theorem eq_of_size {unit other : TimeUnit} (hsize : unit.size = other.size) : unit = other := by
  cases unit <;> cases other <;> first | rfl | exact absurd hsize (by decide)

/-- A larger unit is a multiple of a smaller one. -/
theorem size_dvd {unit other : TimeUnit} (hle : unit.size ≤ other.size) :
    unit.size ∣ other.size := by
  cases unit <;> cases other <;> revert hle <;> decide

end TimeUnit

/-- A time as it is shown: so many hundredths of a unit. -/
structure Shown where
  hundredths : Nat
  unit : TimeUnit
  deriving DecidableEq, Repr

namespace Shown

/-- Number times unit. -/
def nanoseconds (s : Shown) : ℚ := s.hundredths / 100 * s.unit.size

/-- Reads digits, a point, two digits and a unit. -/
def ofText? (text : String) : Option Shown :=
  let whole := text.toList.takeWhile Char.isDigit
  match text.toList.dropWhile Char.isDigit with
  | '.' :: tenths :: rest :: symbol =>
    if areDigits whole && areDigits [tenths, rest] then
      (TimeUnit.ofSymbol? (String.ofList symbol)).map fun unit =>
        { hundredths := Nat.ofDigitChars 10 (whole ++ [tenths, rest]) 0, unit }
    else none
  | _ => none

end Shown

namespace Duration

def shown (d : Duration) : Shown where
  hundredths := d.hundredths
  unit := d.unit

theorem ofText?_text (d : Duration) : Shown.ofText? d.text = some d.shown := by
  have hdigits := digitsOf_toString (d.hundredths / 100)
  have htext : d.text.toList = (toString (d.hundredths / 100)).toList ++
      '.' :: (d.hundredths % 100 / 10).digitChar :: (d.hundredths % 100 % 10).digitChar ::
        d.unit.symbol.toList := by
    simp [text, toList_hundredthsText]
  have hwhole : d.text.toList.takeWhile Char.isDigit = (toString (d.hundredths / 100)).toList := by
    rw [htext, List.takeWhile_append_of_pos hdigits.isDigit]
    simp
  have hrest : d.text.toList.dropWhile Char.isDigit =
      '.' :: (d.hundredths % 100 / 10).digitChar :: (d.hundredths % 100 % 10).digitChar ::
        d.unit.symbol.toList := by
    rw [htext, List.dropWhile_append_of_pos hdigits.isDigit]
    simp
  have hvalue : Nat.ofDigitChars 10 ((toString (d.hundredths / 100)).toList ++
      [(d.hundredths % 100 / 10).digitChar, (d.hundredths % 100 % 10).digitChar]) 0 =
        d.hundredths := by
    rw [Nat.ofDigitChars_append, hdigits.value,
      Nat.ofDigitChars_cons_digitChar_of_lt_ten (by omega),
      Nat.ofDigitChars_cons_digitChar_of_lt_ten (by omega), Nat.ofDigitChars_nil]
    omega
  have hplaces : areDigits [(d.hundredths % 100 / 10).digitChar,
      (d.hundredths % 100 % 10).digitChar] := by
    simp [areDigits]
    omega
  unfold Shown.ofText?
  rw [hwhole, hrest]
  simp only [hdigits.areDigits, hplaces, Bool.and_true, if_true, String.ofList_toList,
    TimeUnit.ofSymbol?_symbol, hvalue]
  rfl

theorem hundredths_eq (d : Duration) :
    d.hundredths = roundHalfEven (d.nanoseconds * 100) d.unit.size := rfl

/-- Rounding moves the time by at most half a hundredth of the unit. -/
theorem abs_shown_sub_le (d : Duration) :
    |d.shown.nanoseconds - d.nanoseconds| ≤ (d.shown.unit.size : ℚ) / 200 := by
  have hdown := le_roundHalfEven (d.nanoseconds * 100) _ d.unit.size_pos
  have hup := roundHalfEven_le (d.nanoseconds * 100) _ d.unit.size_pos
  rw [← hundredths_eq] at hdown hup
  have hdown : (2 * (d.nanoseconds * 100) : ℚ) ≤ d.unit.size * (2 * d.hundredths + 1) := by
    exact_mod_cast hdown
  have hup : (2 * d.unit.size * d.hundredths : ℚ) ≤ 2 * (d.nanoseconds * 100) + d.unit.size := by
    exact_mod_cast hup
  rw [Shown.nanoseconds, abs_le]
  constructor <;> simp only [shown] <;> linarith

theorem unit_size_le (d : Duration) : d.unit.size ≤ max 1 d.nanoseconds := by
  unfold unit
  split_ifs <;> simp only [TimeUnit.size] at * <;> omega

theorem size_le_unit {d : Duration} {unit : TimeUnit} (hle : unit.size ≤ max 1 d.nanoseconds) :
    unit.size ≤ d.unit.size := by
  unfold Duration.unit
  cases unit <;> split_ifs <;> simp only [TimeUnit.size] at * <;> omega

/-- Two spans in order have the same unit, or the size of the second one's unit, a multiple of the
first one's, stands between them. -/
theorem unit_cases {d later : Duration} (hle : d.nanoseconds ≤ later.nanoseconds) :
    d.unit = later.unit ∨ (d.nanoseconds ≤ later.unit.size ∧
      later.unit.size ≤ later.nanoseconds ∧ d.unit.size ∣ later.unit.size) := by
  have hunit := d.unit_size_le
  have hlater := later.unit_size_le
  have hless : d.unit.size ≤ later.unit.size := size_le_unit (by omega)
  by_cases hbelow : later.unit.size ≤ max 1 d.nanoseconds
  · exact .inl (TimeUnit.eq_of_size (hless.antisymm (size_le_unit hbelow)))
  · exact .inr ⟨by omega, by omega, TimeUnit.size_dvd hless⟩

/-- Longer spans are not shown as shorter ones. -/
theorem shown_mono {d later : Duration} (hle : d.nanoseconds ≤ later.nanoseconds) :
    d.shown.nanoseconds ≤ later.shown.nanoseconds := by
  have hwords : d.hundredths * d.unit.size ≤ later.hundredths * later.unit.size := by
    rcases unit_cases hle with hsame | ⟨hbelow, habove, n, hmultiple⟩
    · rw [hundredths_eq, hundredths_eq, hsame]
      exact Nat.mul_le_mul_right _ (roundHalfEven_mono (Nat.mul_le_mul_right _ hle) _)
    · have hfirst : d.hundredths ≤ n * 100 := by
        rw [hundredths_eq, ← roundHalfEven_mul (n * 100) d.unit.size_pos]
        refine roundHalfEven_mono ?_ _
        rw [Nat.mul_right_comm, Nat.mul_comm n, ← hmultiple]
        exact Nat.mul_le_mul_right _ hbelow
      have hsecond : 100 ≤ later.hundredths := by
        have hwhole := roundHalfEven_mul 100 later.unit.size_pos
        rw [Nat.mul_comm] at hwhole
        rw [hundredths_eq]
        exact hwhole.symm.trans_le (roundHalfEven_mono (Nat.mul_le_mul_right 100 habove) _)
      calc d.hundredths * d.unit.size
          ≤ n * 100 * d.unit.size := Nat.mul_le_mul_right _ hfirst
        _ = 100 * later.unit.size := by
            rw [hmultiple, Nat.mul_comm n, Nat.mul_assoc, Nat.mul_comm n]
        _ ≤ later.hundredths * later.unit.size := Nat.mul_le_mul_right _ hsecond
  have hwords : (d.hundredths * d.unit.size : ℚ) ≤ later.hundredths * later.unit.size := by
    exact_mod_cast hwords
  simp only [Shown.nanoseconds, shown]
  linarith

-- A carry keeps the unit, and the next unit goes on from there.
example : [999_994, 999_995, 1_000_000].map (fun n => (Duration.mk n).text) =
    ["999.99µs", "1000.00µs", "1.00ms"] := by decide

-- Seconds are shown beyond the words that hold them.
example : (Duration.mk 18446744073709551615_999_999_999).text = "18446744073709551616.00s" := by
  decide

end Duration

end ReaderWriter.Number
