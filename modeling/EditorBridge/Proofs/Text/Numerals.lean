import EditorBridge.Text.Digits
/-!
Whole numbers as they may be written. Within a bound exactly the numerals of the numbers up to it
are read; a minus sign, a second plus sign, space between the digits or no digit at all make no
numeral, and leading zeros change nothing.
-/
namespace EditorBridge.Text

/-- The text is an optional plus sign and at least one decimal digit, and these digits make up the
number. -/
def Numeral (text : List Char) (n : Nat) : Prop :=
  ∃ digits, (text = digits ∨ text = '+' :: digits) ∧ digits ≠ [] ∧
    (∀ c ∈ digits, isDecimalDigit c = true) ∧ decimalValue digits = n

variable {text : List Char} {n m bound : Nat}

theorem boundedNat?_plus (digits : List Char) :
    boundedNat? bound ('+' :: digits) =
      if digits ≠ [] ∧ digits.all isDecimalDigit ∧ decimalValue digits ≤ bound then
        some (decimalValue digits) else none := rfl

theorem boundedNat?_of_no_plus (h : ∀ digits, text ≠ '+' :: digits) :
    boundedNat? bound text =
      if text ≠ [] ∧ text.all isDecimalDigit ∧ decimalValue text ≤ bound then
        some (decimalValue text) else none := by
  unfold boundedNat?
  split
  · rename_i digits
    exact absurd rfl (h digits)
  · simp only

/-- A digit is no sign. -/
theorem ne_plus_of_digits {digits rest : List Char}
    (h : ∀ c ∈ digits, isDecimalDigit c = true) : digits ≠ '+' :: rest := by
  rintro rfl
  have hSign := h '+' List.mem_cons_self
  revert hSign
  decide

theorem boundedNat?_eq_some_iff :
    boundedNat? bound text = some n ↔ Numeral text n ∧ n ≤ bound := by
  constructor
  · intro h
    by_cases hPlus : ∃ digits, text = '+' :: digits
    · obtain ⟨digits, rfl⟩ := hPlus
      rw [boundedNat?_plus, Option.ite_none_right_eq_some] at h
      obtain ⟨⟨hSome, hDigits, hBound⟩, hValue⟩ := h
      obtain rfl := Option.some.inj hValue
      exact ⟨⟨digits, .inr rfl, hSome, List.all_eq_true.mp hDigits, rfl⟩, hBound⟩
    · rw [boundedNat?_of_no_plus (not_exists.mp hPlus), Option.ite_none_right_eq_some] at h
      obtain ⟨⟨hSome, hDigits, hBound⟩, hValue⟩ := h
      obtain rfl := Option.some.inj hValue
      exact ⟨⟨text, .inl rfl, hSome, List.all_eq_true.mp hDigits, rfl⟩, hBound⟩
  · rintro ⟨⟨digits, hText, hSome, hDigits, rfl⟩, hBound⟩
    have hRead : digits ≠ [] ∧ digits.all isDecimalDigit ∧ decimalValue digits ≤ bound :=
      ⟨hSome, List.all_eq_true.mpr hDigits, hBound⟩
    rcases hText with rfl | rfl
    · rw [boundedNat?_of_no_plus fun rest => ne_plus_of_digits hDigits, if_pos hRead]
    · rw [boundedNat?_plus, if_pos hRead]

/-- A text is the numeral of one number at most. -/
theorem Numeral.unique (h : Numeral text n) (h' : Numeral text m) : n = m := by
  have hRead := boundedNat?_eq_some_iff.mpr ⟨h, Nat.le_max_left n m⟩
  have hRead' := boundedNat?_eq_some_iff.mpr ⟨h', Nat.le_max_right n m⟩
  exact Option.some.inj (hRead.symm.trans hRead')

theorem boundedNat?_eq_none_iff :
    boundedNat? bound text = none ↔ ∀ n, Numeral text n → bound < n := by
  rw [Option.eq_none_iff_forall_ne_some]
  apply forall_congr'
  intro n
  rw [ne_eq, boundedNat?_eq_some_iff, not_and, Nat.not_le]

end EditorBridge.Text
