/-!
# Rounding to hundredths

A quotient of natural numbers is rounded to the nearest natural number, a half to the even
neighbour, and a number of hundredths is written with two places.
-/

namespace ReaderWriter.Number

/-- The natural number nearest to `num / den`; a half goes to the even neighbour. -/
def roundHalfEven (num den : Nat) : Nat :=
  let floor := num / den
  let rest := num % den
  if 2 * rest < den then floor
  else if den < 2 * rest then floor + 1
  else floor + floor % 2

/-- Rounding moves a quotient down by at most a half. -/
theorem le_roundHalfEven (num den : Nat) (h : 0 < den) :
    2 * num ≤ den * (2 * roundHalfEven num den + 1) := by
  have hdiv := Nat.div_add_mod num den
  have hlt := Nat.mod_lt num h
  unfold roundHalfEven
  simp only
  generalize num / den = floor at *
  generalize num % den = rest at *
  subst hdiv
  split
  · grind
  · split
    · grind
    · have : floor % 2 = 0 ∨ floor % 2 = 1 := by omega
      grind

/-- Rounding moves a quotient up by at most a half. -/
theorem roundHalfEven_le (num den : Nat) (h : 0 < den) :
    2 * den * roundHalfEven num den ≤ 2 * num + den := by
  have hdiv := Nat.div_add_mod num den
  have hlt := Nat.mod_lt num h
  unfold roundHalfEven
  simp only
  generalize num / den = floor at *
  generalize num % den = rest at *
  subst hdiv
  split
  · grind
  · split
    · grind
    · have : floor % 2 = 0 ∨ floor % 2 = 1 := by omega
      grind

/-- A number of hundredths, with two places. -/
def hundredthsText (hundredths : Nat) : String :=
  let fraction := hundredths % 100
  toString (hundredths / 100) ++ "." ++ toString (fraction / 10) ++ toString (fraction % 10)

end ReaderWriter.Number
