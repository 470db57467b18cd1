import ReaderWriter.Number.Numeral

/-!
# Numerals that are read

A numeral of a natural number is a row of digits, perhaps with zeros in front, and perhaps behind a
plus sign.  Whatever its form, it is read as its number if that is in range.
-/

namespace ReaderWriter.Number

/-- Digits that stand for a number. -/
structure DigitsOf (digits : List Char) (n : Nat) : Prop where
  nonempty : digits ≠ []
  isDigit : ∀ c ∈ digits, c.isDigit
  value : Nat.ofDigitChars 10 digits 0 = n

def NumeralOf (text : String) (n : Nat) : Prop :=
  ∃ digits, DigitsOf digits n ∧ (text.toList = digits ∨ text.toList = '+' :: digits)

theorem digitsOf_toString (n : Nat) : DigitsOf (toString n).toList n := by
  rw [Nat.toString_eq_repr, Nat.toList_repr]
  exact ⟨Nat.toDigits_ne_nil, fun _ hc => Nat.isDigit_of_mem_toDigits (by decide) (by decide) hc,
    Nat.ofDigitChars_ten_toDigits⟩

theorem numeralOf_toString (n : Nat) : NumeralOf (toString n) n :=
  ⟨_, digitsOf_toString n, .inl rfl⟩

theorem DigitsOf.exists_cons {digits : List Char} {n : Nat} (hdigits : DigitsOf digits n) :
    ∃ first others, digits = first :: others ∧ first.isDigit ∧ first ≠ '+' ∧ first ≠ '-' := by
  obtain ⟨first, others, rfl⟩ := List.exists_cons_of_ne_nil hdigits.nonempty
  have hfirst := hdigits.isDigit first List.mem_cons_self
  refine ⟨first, others, rfl, hfirst, ?_, ?_⟩
  · rintro rfl
    exact absurd hfirst (by decide)
  · rintro rfl
    exact absurd hfirst (by decide)

theorem DigitsOf.areDigits {digits : List Char} {n : Nat} (hdigits : DigitsOf digits n) :
    areDigits digits = true := by
  simpa [Number.areDigits, hdigits.nonempty] using hdigits.isDigit

/-- More digits make no smaller number. -/
theorem le_ofDigitChars (digits : List Char) (n : Nat) : n ≤ Nat.ofDigitChars 10 digits n := by
  induction digits generalizing n with
  | nil => simp
  | cons c digits ih =>
      have hmore := ih (10 * n + (c.toNat - '0'.toNat))
      rw [Nat.ofDigitChars_cons]
      omega

/-- If the whole number is in range, so is every number on the way. -/
theorem readDigits_eq_ok {bound : Nat} (overflow : NumeralFault) {digits : List Char} {n : Nat}
    (hdigits : ∀ c ∈ digits, c.isDigit) (hbound : Nat.ofDigitChars 10 digits n ≤ bound) :
    readDigits bound overflow n digits = .ok (Nat.ofDigitChars 10 digits n) := by
  induction digits generalizing n with
  | nil => simp [readDigits]
  | cons c digits ih =>
      have hnext := le_ofDigitChars digits (10 * n + (c.toNat - '0'.toNat))
      rw [Nat.ofDigitChars_cons] at hbound ⊢
      rw [readDigits, if_pos (hdigits c List.mem_cons_self)]
      simp only [if_pos (Nat.le_trans hnext hbound)]
      exact ih (fun d hd => hdigits d (List.mem_cons_of_mem c hd)) hbound

section Reading

variable {text : String} {n : Nat}

theorem readNatural_of_numeral {bound : Nat} (hnumeral : NumeralOf text n) (hbound : n ≤ bound) :
    readNatural bound text = .ok n := by
  obtain ⟨digits, hdigits, htext⟩ := hnumeral
  have hread : readDigits bound .tooLarge 0 digits = .ok n := by
    have hvalue := hdigits.value
    rw [readDigits_eq_ok _ hdigits.isDigit (hvalue ▸ hbound), hvalue]
  obtain ⟨first, others, rfl, _, hplus, _⟩ := hdigits.exists_cons
  unfold readNatural
  rcases htext with htext | htext <;> rw [htext]
  · simpa [hplus] using hread
  · exact hread

theorem readInteger_of_numeral (hnumeral : NumeralOf text n) (hbound : n ≤ UInt64.size / 2 - 1) :
    readInteger text = .ok n := by
  obtain ⟨digits, hdigits, htext⟩ := hnumeral
  have hread : (readDigits (UInt64.size / 2 - 1) .tooLarge 0 digits).map Int.ofNat =
      .ok (n : Int) := by
    have hvalue := hdigits.value
    rw [readDigits_eq_ok _ hdigits.isDigit (hvalue ▸ hbound), hvalue]
    rfl
  obtain ⟨first, others, rfl, _, hplus, hminus⟩ := hdigits.exists_cons
  unfold readInteger
  rcases htext with htext | htext <;> rw [htext]
  · simpa [hplus, hminus] using hread
  · exact hread

/-- A numeral does not begin with a dash, so it is never taken for an option. -/
theorem NumeralOf.head?_ne_dash (hnumeral : NumeralOf text n) : text.toList.head? ≠ some '-' := by
  obtain ⟨digits, hdigits, htext⟩ := hnumeral
  obtain ⟨first, others, rfl, _, _, hminus⟩ := hdigits.exists_cons
  rcases htext with htext | htext <;> simp [htext, hminus]

end Reading

end ReaderWriter.Number
