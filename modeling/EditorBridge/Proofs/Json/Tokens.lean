import EditorBridge.Json.Parser
import EditorBridge.Json.Printer
import Mathlib.Data.List.DropRight
import Mathlib.Data.List.Forall2
import Mathlib.Tactic.IntervalCases
/-!
Strings and numbers in a JSON text. A string that was written is read back, whatever stands behind
it; a number is read back before whatever ends a number, if its text alone is read as the number.
All whole numbers of 64 bits are of this kind.
-/
namespace EditorBridge

/-- The text of the number is read as the number. -/
def Number.Legible (n : Number) : Prop :=
  Document.readValue 1 0 n.text.toList = (.number n, [])

namespace Document

open Json (escapeChar hexDigit)

/-- The piece stands for the character: as it is, or by the four digits of a control character. -/
def Piece.Spells (c : Char) (p : Piece) : Prop := p = .char c ∨ p = .unit c.toNat ∧ c.toNat < 0x20

theorem hexUnit?_control : ∀ n < 0x20,
    hexUnit? '0' '0' (hexDigit (n / 16)) (hexDigit n) = some n := by decide

/-- What is written of a character is read as one piece, which stands for it. -/
theorem pieces_escapeChar (acc : List Piece) (c : Char) (rest : List Char) :
    ∃ p, p.Spells c ∧ pieces acc (escapeChar c ++ rest) = pieces (p :: acc) rest := by
  unfold escapeChar
  by_cases hQuote : c = '"'
  · exact ⟨.char c, .inl rfl, by subst hQuote; rfl⟩
  by_cases hBackslash : c = '\\'
  · exact ⟨.char c, .inl rfl, by subst hBackslash; rfl⟩
  by_cases hBackspace : c = '\x08'
  · exact ⟨.char c, .inl rfl, by subst hBackspace; rfl⟩
  by_cases hTab : c = '\t'
  · exact ⟨.char c, .inl rfl, by subst hTab; rfl⟩
  by_cases hNewline : c = '\n'
  · exact ⟨.char c, .inl rfl, by subst hNewline; rfl⟩
  by_cases hFeed : c = '\x0c'
  · exact ⟨.char c, .inl rfl, by subst hFeed; rfl⟩
  by_cases hReturn : c = '\r'
  · exact ⟨.char c, .inl rfl, by subst hReturn; rfl⟩
  simp only [hQuote, hBackslash, hBackspace, hTab, hNewline, hFeed, hReturn, if_false]
  by_cases hControl : c.toNat < 0x20
  · exact ⟨.unit c.toNat, .inr ⟨rfl, hControl⟩, by
      simp [hControl, pieces, hexUnit?_control _ hControl]⟩
  · exact ⟨.char c, .inl rfl, by simp [hControl, pieces]⟩

/-- The characters of a written string are read as pieces that stand for them, up to the quote. -/
theorem pieces_flatMap (acc : List Piece) (s rest : List Char) :
    ∃ ps, List.Forall₂ (fun c p => Piece.Spells c p) s ps ∧
      pieces acc (s.flatMap escapeChar ++ '"' :: rest) = (ps.reverse ++ acc, .ok rest) := by
  induction s generalizing acc with
  | nil => exact ⟨[], .nil, by simp [pieces]⟩
  | cons c s ih =>
    obtain ⟨p, hSpells, hFirst⟩ := pieces_escapeChar acc c (s.flatMap escapeChar ++ '"' :: rest)
    obtain ⟨ps, hRest, hPieces⟩ := ih (p :: acc)
    refine ⟨p :: ps, .cons hSpells hRest, ?_⟩
    rw [List.flatMap_cons, List.append_assoc, hFirst, hPieces]
    simp

theorem joinPieces_of_spells {s : List Char} {ps : List Piece}
    (h : List.Forall₂ (fun c p => Piece.Spells c p) s ps) : joinPieces (.ok ()) ps = .ok s := by
  induction h with
  | nil => rfl
  | @cons c p s ps hFirst hRest ih =>
    rcases hFirst with rfl | ⟨rfl, hControl⟩
    · rw [joinPieces, ih]
      rfl
    · have hPlain : c.toNat < 0xD800 ∨ 0xDFFF < c.toNat := by omega
      unfold joinPieces
      rw [if_pos hPlain, ih, Char.ofNat_toNat]
      rfl

/-- A string that was written is read back. -/
theorem readString_written (s : String) (rest : List Char) :
    readString (s.toList.flatMap escapeChar ++ '"' :: rest) = (.string s, rest) := by
  obtain ⟨ps, hSpells, hPieces⟩ := pieces_flatMap [] s.toList rest
  have hText : joinPieces (Except.map (fun _ => ()) (.ok rest : Except TextFault (List Char)))
      (ps.reverse ++ []).reverse = .ok s.toList := by
    rw [List.append_nil, List.reverse_reverse]
    exact joinPieces_of_spells hSpells
  simp only [readString, hPieces, hText, String.ofList_toList]

/-- What a number is over before: nothing, or a character that continues none. -/
def Ends (rest : List Char) : Prop :=
  ∀ c ∈ rest.head?, isDigit c = false ∧ c ≠ '.' ∧ c ≠ 'e' ∧ c ≠ 'E'

variable {s rest : List Char} {n : Number} {negative below : Bool} {sig : Significand}

theorem Ends.digits (h : Ends rest) (s : List Char) :
    (s ++ rest).takeWhile isDigit = s.takeWhile isDigit ∧
      (s ++ rest).dropWhile isDigit = s.dropWhile isDigit ++ rest := by
  induction s with
  | nil =>
    cases rest with
    | nil => exact ⟨rfl, rfl⟩
    | cons c rest => simp [(h c rfl).1]
  | cons c s ih =>
    by_cases hDigit : isDigit c = true
    · simp [hDigit, ih]
    · simp [hDigit]

/-- A number that is read from a text without a rest is read where the text is followed by what
ends it. -/
theorem readPower_append (hRest : Ends rest)
    (h : readPower negative below sig s = (.number n, [])) :
    readPower negative below sig (s ++ rest) = (.number n, rest) := by
  obtain ⟨hTake, hDrop⟩ := hRest.digits s
  simp only [readPower, hTake, hDrop] at h ⊢
  split at h
  · simp at h
  · rename_i hSome
    rw [if_neg hSome]
    split at h <;> rename_i hLarge
    · rw [if_pos hLarge]
      split at h <;> rename_i hZero
      · rw [if_pos hZero]
        obtain ⟨hNumber, hOver⟩ := Prod.mk.inj h
        rw [hNumber, hOver, List.nil_append]
      · simp at h
    · rw [if_neg hLarge]
      obtain ⟨hNumber, hOver⟩ := Prod.mk.inj h
      rw [hNumber, hOver, List.nil_append]


/-- A sign stays the sign, and what is none stays none. -/
theorem exponentSign_append (c : Char) (s rest : List Char) :
    exponentSign (c :: s ++ rest) =
      ((exponentSign (c :: s)).1, (exponentSign (c :: s)).2 ++ rest) := by
  by_cases hPlus : c = '+'
  · subst hPlus
    rfl
  · by_cases hMinus : c = '-'
    · subst hMinus
      rfl
    · simp [exponentSign, hPlus, hMinus]

theorem readExponent_append (hRest : Ends rest)
    (h : readExponent negative sig s = (.number n, [])) :
    readExponent negative sig (s ++ rest) = (.number n, rest) := by
  cases s with
  | nil => simp [readExponent, readPower, exponentSign] at h
  | cons c s =>
    rw [readExponent, exponentSign_append]
    exact readPower_append hRest h

theorem readFraction_append (hRest : Ends rest)
    (h : readFraction negative sig s = (.number n, [])) :
    readFraction negative sig (s ++ rest) = (.number n, rest) := by
  obtain ⟨hTake, hDrop⟩ := hRest.digits s
  simp only [readFraction, hTake, hDrop] at h ⊢
  split at h
  · simp at h
  · rename_i hSome
    rw [if_neg hSome]
    generalize s.dropWhile isDigit = after at h ⊢
    split at h
    · exact readExponent_append hRest h
    · exact readExponent_append hRest h
    · obtain ⟨hNumber, rfl⟩ := Prod.mk.inj h
      rw [List.nil_append, hNumber]
      split
      · exact absurd rfl (hRest 'e' rfl).2.2.1
      · exact absurd rfl (hRest 'E' rfl).2.2.2
      · rfl

theorem readNumber_append (hRest : Ends rest) (h : readNumber negative s = (.number n, [])) :
    readNumber negative (s ++ rest) = (.number n, rest) := by
  obtain ⟨hTake, hDrop⟩ := hRest.digits s
  simp only [readNumber, hTake, hDrop] at h ⊢
  generalize s.takeWhile isDigit = ds at h ⊢
  generalize s.dropWhile isDigit = after at h ⊢
  split at h
  · simp at h
  · simp at h
  · split at h
    · exact readFraction_append hRest h
    · exact readExponent_append hRest h
    · exact readExponent_append hRest h
    · obtain ⟨hNumber, rfl⟩ := Prod.mk.inj h
      rw [List.nil_append, hNumber]
      split
      · exact absurd rfl (hRest '.' rfl).2.1
      · exact absurd rfl (hRest 'e' rfl).2.2.1
      · exact absurd rfl (hRest 'E' rfl).2.2.2
      · rfl

/-- A digit opens a number without a sign. -/
theorem readValue_digit {c : Char} (hDigit : isDigit c = true) (fuel depth : Nat) (s : List Char) :
    readValue (fuel + 1) depth (c :: s) = readNumber false (c :: s) := by
  have hOne : c ∈ ['0', '1', '2', '3', '4', '5', '6', '7', '8', '9'] := by
    simp only [isDigit, Bool.and_eq_true, decide_eq_true_eq] at hDigit
    obtain ⟨hLow, hHigh⟩ := hDigit
    have hLow : 48 ≤ c.toNat := hLow
    have hHigh : c.toNat ≤ 57 := hHigh
    rw [← Char.ofNat_toNat c]
    generalize c.toNat = k at hLow hHigh ⊢
    interval_cases k <;> decide
  simp only [List.mem_cons, List.not_mem_nil, or_false] at hOne
  rcases hOne with rfl | rfl | rfl | rfl | rfl | rfl | rfl | rfl | rfl | rfl <;> rfl

theorem readWord_ne_number {d : Document} (hOther : d ≠ .number n) (word s : List Char) :
    (readWord d word s).1 ≠ .number n := by
  induction word generalizing s with
  | nil => exact hOther
  | cons w word ih =>
    cases s with
    | nil => simp [readWord]
    | cons c s =>
      rw [readWord]
      split
      · exact ih s
      · simp

theorem readString_ne_number (s : List Char) : (readString s).1 ≠ .number n := by
  unfold readString
  dsimp only
  split <;> simp

theorem limitDepth_ne_number {d : Document} (hOther : d ≠ .number n) (depth : Nat) :
    limitDepth depth d ≠ .number n := by
  unfold limitDepth
  split
  · simp
  · exact hOther

/-- Space in front of a value is passed over. -/
theorem readValue_skipSpace (fuel depth : Nat) (s : List Char) :
    readValue (fuel + 1) depth (skipSpace s) = readValue (fuel + 1) depth s := by
  rw [readValue, readValue, skipSpace, skipSpace, List.dropWhile_idempotent]

theorem skipSpace_append (hSome : skipSpace s ≠ []) (rest : List Char) :
    skipSpace (s ++ rest) = skipSpace s ++ rest := by
  have hNone : (s.dropWhile Json.isSpace).isEmpty = false := by simpa [skipSpace] using hSome
  rw [skipSpace, List.dropWhile_append, if_neg (by simp [hNone]), skipSpace]

/-- Only what opens with a minus sign or a digit is read as a number. -/
theorem number_of_readValue (h : (readValue 1 0 s).1 = .number n) :
    (∃ r, skipSpace s = '-' :: r ∧ readValue 1 0 s = readNumber true r) ∨
      ∃ c r, skipSpace s = c :: r ∧ isDigit c = true ∧ readValue 1 0 s = readNumber false (c :: r) := by
  rw [readValue] at h ⊢
  split at h
  · simp at h
  · exact absurd h (readWord_ne_number (by simp) _ _)
  · exact absurd h (readWord_ne_number (by simp) _ _)
  · exact absurd h (readWord_ne_number (by simp) _ _)
  · rename_i r hHead
    exact .inl ⟨r, hHead, rfl⟩
  · exact absurd h (readString_ne_number _)
  · split at h
    dsimp only at h
    exact absurd h (limitDepth_ne_number (by simp) _)
  · split at h
    dsimp only at h
    exact absurd h (limitDepth_ne_number (by simp) _)
  · rename_i hHead
    split at h
    · rename_i hDigit
      exact .inr ⟨_, _, hHead, hDigit, if_pos hDigit⟩
    · simp at h

/-- What is read as a number is read so before whatever ends a number. -/
theorem readValue_number_append (hRest : Ends rest) (h : readValue 1 0 s = (.number n, []))
    (fuel depth : Nat) : readValue (fuel + 1) depth (s ++ rest) = (.number n, rest) := by
  rcases number_of_readValue (congrArg Prod.fst h) with
    ⟨r, hHead, hRead⟩ | ⟨c, r, hHead, hDigit, hRead⟩
  · rw [← readValue_skipSpace, skipSpace_append (by simp [hHead]), hHead]
    exact readNumber_append hRest (hRead.symm.trans h)
  · rw [← readValue_skipSpace, skipSpace_append (by simp [hHead]), hHead, List.cons_append,
      readValue_digit hDigit]
    exact readNumber_append hRest (hRead.symm.trans h)

theorem takeWhile_dropWhile_digits {digits : List Char} (h : ∀ c ∈ digits, isDigit c = true) :
    digits.takeWhile isDigit = digits ∧ digits.dropWhile isDigit = [] :=
  ⟨List.takeWhile_eq_self_iff.mpr h, List.dropWhile_eq_nil_iff.mpr h⟩

theorem isDigit_of_mem_toDigits {m : Nat} {c : Char} (h : c ∈ Nat.toDigits 10 m) :
    isDigit c = true := by
  have hDigit := Nat.isDigit_of_mem_toDigits (by decide) (by decide) h
  simp only [Char.isDigit, ge_iff_le, Bool.and_eq_true, decide_eq_true_eq] at hDigit
  simp only [isDigit, Bool.and_eq_true, decide_eq_true_eq]
  exact hDigit

/-- No number but zero is written with a zero in front. -/
theorem toDigits_ne_zero_cons (m : Nat) (c : Char) (digits : List Char) :
    Nat.toDigits 10 m ≠ '0' :: c :: digits := by
  induction m using Nat.strongRecOn generalizing c digits with
  | ind m ih =>
    rw [Nat.toDigits_eq_if (by decide)]
    split
    · simp
    · rename_i hLarge
      intro hZero
      cases hHigh : Nat.toDigits 10 (m / 10) with
      | nil => exact Nat.toDigits_ne_nil hHigh
      | cons first more =>
        rw [hHigh, List.cons_append] at hZero
        obtain ⟨rfl, hMore⟩ := List.cons.inj hZero
        cases more with
        | nil =>
          have hValue : Nat.ofDigitChars 10 (Nat.toDigits 10 (m / 10)) 0 = 0 := by rw [hHigh]; rfl
          rw [Nat.ofDigitChars_ten_toDigits] at hValue
          omega
        | cons second more => exact ih (m / 10) (by omega) _ _ hHigh

theorem le_ofDigitChars (digits : List Char) (v : Nat) : v ≤ Nat.ofDigitChars 10 digits v := by
  induction digits generalizing v with
  | nil => exact Nat.le_refl v
  | cons c digits ih =>
    rw [Nat.ofDigitChars_cons]
    exact Nat.le_trans (by omega) (ih _)

/-- Digits that make up a number of 64 bits are all kept. -/
theorem wholeDigits_eq {digits : List Char} {v : Nat}
    (h : Nat.ofDigitChars 10 digits v ≤ maxSignificand) :
    wholeDigits ⟨v, 0⟩ false digits = ⟨Nat.ofDigitChars 10 digits v, 0⟩ := by
  induction digits generalizing v with
  | nil => rfl
  | cons c digits ih =>
    rw [Nat.ofDigitChars_cons] at h ⊢
    have hNext : v * 10 + digitValue c = 10 * v + (c.toNat - '0'.toNat) := by
      rw [Nat.mul_comm]
      rfl
    have hFits : v * 10 + digitValue c ≤ maxSignificand := by
      rw [hNext]
      exact Nat.le_trans (le_ofDigitChars _ _) h
    rw [wholeDigits]
    simp only [Bool.false_or, decide_eq_true_eq, if_neg (Nat.not_lt.mpr hFits)]
    rw [hNext, ih h]

theorem readNumber_toDigits {m : Nat} (h : m ≤ maxSignificand) :
    readNumber negative (Nat.toDigits 10 m) = (wholeNumber negative ⟨m, 0⟩, []) := by
  obtain ⟨hTake, hDrop⟩ :=
    takeWhile_dropWhile_digits fun c => isDigit_of_mem_toDigits (m := m) (c := c)
  have hValue : wholeDigits ⟨0, 0⟩ false (Nat.toDigits 10 m) = ⟨m, 0⟩ := by
    rw [wholeDigits_eq (by rwa [Nat.ofDigitChars_ten_toDigits]), Nat.ofDigitChars_ten_toDigits]
  simp only [readNumber, hTake, hDrop]
  split
  · rename_i hNone
    exact absurd hNone Nat.toDigits_ne_nil
  · rename_i hZero
    exact absurd hZero (toDigits_ne_zero_cons _ _ _)
  · rw [hValue]

theorem readValue_toDigits (m fuel depth : Nat) :
    readValue (fuel + 1) depth (Nat.toDigits 10 m) = readNumber false (Nat.toDigits 10 m) := by
  cases hDigits : Nat.toDigits 10 m with
  | nil => exact absurd hDigits Nat.toDigits_ne_nil
  | cons c digits =>
    have hMem : c ∈ Nat.toDigits 10 m := by
      rw [hDigits]
      exact List.mem_cons_self
    exact readValue_digit (isDigit_of_mem_toDigits hMem) fuel depth digits

end Document

open Document in
/-- Every whole number of 64 bits is legible. -/
theorem Number.legible_integer {i : Int} (hLow : -Int.pow 2 63 ≤ i) (hHigh : i < Int.pow 2 64) :
    Number.Legible (.integer i) := by
  have hLow : -9223372036854775808 ≤ i := hLow
  have hHigh : i < 18446744073709551616 := hHigh
  have hMax : maxSignificand = 18446744073709551615 := rfl
  cases i with
  | ofNat m =>
    have hHigh : (m : Int) < 18446744073709551616 := hHigh
    have hText : (Number.integer (.ofNat m)).text.toList = Nat.toDigits 10 m := Nat.toList_repr
    rw [Number.Legible, hText, readValue_toDigits, readNumber_toDigits (by omega)]
    rfl
  | negSucc m =>
    have hText : (Number.integer (.negSucc m)).text.toList = '-' :: Nat.toDigits 10 (m + 1) := by
      show ("-" ++ (m + 1).repr).toList = _
      rw [String.toList_append, Nat.toList_repr]
      rfl
    have hPower : Nat.pow 2 63 = 9223372036854775808 := rfl
    have hWhole : wholeNumber true ⟨m + 1, 0⟩ = .number (.integer (.negSucc m)) := by
      unfold wholeNumber
      rw [if_neg (by simp), if_pos rfl, if_neg (by simp only; omega)]
      rfl
    rw [Number.Legible, hText]
    show readNumber true (Nat.toDigits 10 (m + 1)) = _
    rw [readNumber_toDigits (by omega), hWhole]

end EditorBridge
