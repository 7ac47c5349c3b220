import EditorBridge.Proofs.Frame.Encoding
/-!
What a text says, told without a reader: frame after frame, until what is left is no whole frame or
begins with a fault. A header block ends with the first blank line; the message behind it has as
many bytes as its length says. `splitHeader` and `cut` find exactly these parts.
-/
namespace EditorBridge.Frame

def blankLine : List Char := ['\r', '\n', '\r', '\n']

/-- A text with its first blank line, behind `header` and before `rest`. -/
structure Block (text header rest : List Char) : Prop where
  eq : text = header ++ blankLine ++ rest
  first : ∀ header' rest', text = header' ++ blankLine ++ rest' → header.length ≤ header'.length

/-- A text of `n` bytes or more that has a character across the `n`-th byte. -/
def Splits (n : Nat) (text : List Char) : Prop :=
  n ≤ byteSize text ∧ ∀ body rest, text = body ++ rest → byteSize body ≠ n

/-- What stands at the front of a text, and why. -/
inductive Fronts (text : List Char) : Front → Prop where
  | unheaded (hNone : ∀ header rest, text ≠ header ++ blankLine ++ rest) : Fronts text .incomplete
  | short {header rest : List Char} {n : Nat} (hBlock : Block text header rest)
      (hLength : contentLength header = .ok n) (hShort : byteSize rest < n) :
      Fronts text .incomplete
  | malformed {header rest : List Char} {fault : Fault} (hBlock : Block text header rest)
      (hLength : contentLength header = .error fault) : Fronts text (.fault fault)
  | split {header rest : List Char} {n : Nat} (hBlock : Block text header rest)
      (hLength : contentLength header = .ok n) (hSplits : Splits n rest) :
      Fronts text (.fault .splitCharacter)
  | message {header body rest : List Char} (hBlock : Block text header (body ++ rest))
      (hLength : contentLength header = .ok (byteSize body)) : Fronts text (.message body rest)

/-- The messages that a text says, and the fault with which it goes on behind them. -/
inductive Says : List Char → List String → Option Fault → Prop where
  | ends {text : List Char} (hFront : Fronts text .incomplete) : Says text [] none
  | faulty {text : List Char} {fault : Fault} (hFront : Fronts text (.fault fault)) :
      Says text [] (some fault)
  | message {text body rest : List Char} {messages : List String} {fault : Option Fault}
      (hFront : Fronts text (.message body rest)) (hRest : Says rest messages fault) :
      Says text (String.ofList body :: messages) fault

variable {text header header' rest rest' body seen : List Char} {n : Nat} {fault : Fault}

theorem Block.length (h : Block text header rest) :
    header.length + 4 + rest.length = text.length := by
  rw [h.eq, List.length_append, List.length_append]
  rfl

theorem Block.unique (h : Block text header rest) (h' : Block text header' rest') :
    header = header' ∧ rest = rest' := by
  have hLength := Nat.le_antisymm (h.first _ _ h'.eq) (h'.first _ _ h.eq)
  have hSame := h.eq.symm.trans h'.eq
  rw [List.append_assoc, List.append_assoc] at hSame
  obtain ⟨hHeader, hTail⟩ := List.append_inj hSame hLength
  exact ⟨hHeader, List.append_cancel_left hTail⟩

/-- The first blank line stays the first one. -/
theorem Block.append (h : Block text header rest) (more : List Char) :
    Block (text ++ more) header (rest ++ more) := by
  refine ⟨by simp [h.eq], fun header' rest' hOccurs => ?_⟩
  rcases List.append_eq_append_iff.mp hOccurs with ⟨tail, hLong, -⟩ | ⟨tail, hText, -⟩
  · -- The blank line ends behind the text, hence behind the first one.
    have hEnd := congrArg List.length hLong
    have hLength := h.length
    simp only [List.length_append, blankLine, List.length_cons, List.length_nil] at hEnd
    omega
  · exact h.first header' tail hText

theorem Splits.append (h : Splits n text) (more : List Char) : Splits n (text ++ more) := by
  obtain ⟨hLong, hNone⟩ := h
  refine ⟨by rw [byteSize_append]; omega, fun body rest hText hSize => ?_⟩
  rcases List.append_eq_append_iff.mp hText with ⟨tail, rfl, -⟩ | ⟨tail, hBody, -⟩
  · have hWhole := hNone text [] (by simp)
    rw [byteSize_append] at hSize
    omega
  · exact hNone body tail hBody hSize

/-- A blank line that does not begin the text begins behind its first character. -/
theorem exists_cons_of_append_blankLine {c : Char} (h : c :: text = header ++ blankLine ++ rest)
    (hOther : ∀ rest, c = '\r' → text ≠ '\n' :: '\r' :: '\n' :: rest) :
    ∃ tail, header = c :: tail ∧ text = tail ++ blankLine ++ rest := by
  cases header with
  | nil =>
    simp only [blankLine, List.nil_append, List.cons_append, List.cons.injEq] at h
    exact absurd h.2 (hOther rest h.1)
  | cons d tail =>
    simp only [List.cons_append, List.cons.injEq] at h
    exact ⟨tail, by rw [h.1], h.2⟩

theorem splitHeader_block (h : splitHeader seen text = some (header, rest)) :
    ∃ tail, header = seen.reverse ++ tail ∧ Block text tail rest := by
  fun_induction splitHeader seen text with
  | case1 => cases h
  | case2 =>
    simp only [Option.some.injEq, Prod.mk.injEq] at h
    obtain ⟨rfl, rfl⟩ := h
    exact ⟨[], by simp, by simp [blankLine], fun _ _ _ => Nat.zero_le _⟩
  | case3 seen c text hOther ih =>
    obtain ⟨tail, rfl, hEq, hFirst⟩ := ih h
    refine ⟨c :: tail, by simp, by simp [hEq], fun header' rest' hOccurs => ?_⟩
    obtain ⟨tail', rfl, hText⟩ := exists_cons_of_append_blankLine hOccurs fun rest hc hText =>
      hOther rest hc hText
    exact Nat.succ_le_succ (hFirst tail' rest' hText)

theorem splitHeader_none (h : splitHeader seen text = none) (header rest : List Char) :
    text ≠ header ++ blankLine ++ rest := by
  fun_induction splitHeader seen text generalizing header with
  | case1 => simp [blankLine]
  | case2 => cases h
  | case3 seen c text hOther ih =>
    intro hOccurs
    obtain ⟨tail, -, hText⟩ := exists_cons_of_append_blankLine hOccurs fun rest hc hText =>
      hOther rest hc hText
    exact ih h tail hText

theorem splitHeader_eq_some_iff :
    splitHeader [] text = some (header, rest) ↔ Block text header rest := by
  have hSound {header rest : List Char} (h : splitHeader [] text = some (header, rest)) :
      Block text header rest := by
    obtain ⟨tail, rfl, hBlock⟩ := splitHeader_block h
    exact hBlock
  refine ⟨hSound, fun hBlock => ?_⟩
  match hSplit : splitHeader [] text with
  | none => exact absurd hBlock.eq (splitHeader_none hSplit header rest)
  | some (header', rest') =>
    obtain ⟨rfl, rfl⟩ := hBlock.unique (hSound hSplit)
    rfl

theorem splitHeader_eq_none_iff :
    splitHeader [] text = none ↔ ∀ header rest, text ≠ header ++ blankLine ++ rest := by
  refine ⟨splitHeader_none, fun hNone => Option.eq_none_iff_forall_ne_some.mpr ?_⟩
  rintro ⟨header, rest⟩ hSplit
  exact hNone header rest (splitHeader_eq_some_iff.mp hSplit).eq

theorem cut_exact (h : cut seen n text = .exact body rest) :
    ∃ tail, body = seen.reverse ++ tail ∧ text = tail ++ rest ∧ byteSize tail = n := by
  fun_induction cut seen n text with
  | case1 =>
    simp only [Cut.exact.injEq] at h
    obtain ⟨rfl, rfl⟩ := h
    exact ⟨[], by simp, rfl, rfl⟩
  | case3 seen n c text hFits ih =>
    obtain ⟨tail, rfl, rfl, hSize⟩ := ih h
    exact ⟨c :: tail, by simp, rfl, by rw [byteSize_cons]; omega⟩
  | _ => cases h

theorem cut_eq_exact_iff :
    cut [] n text = .exact body rest ↔ text = body ++ rest ∧ byteSize body = n := by
  refine ⟨fun h => ?_, ?_⟩
  · obtain ⟨tail, rfl, hText⟩ := cut_exact h
    exact hText
  · rintro ⟨rfl, rfl⟩
    exact cut_append [] body rest

theorem cut_eq_short_iff : cut seen n text = .short ↔ byteSize text < n := by
  refine ⟨fun h => ?_, cut_short seen text⟩
  fun_induction cut seen n text with
  | case2 => exact Nat.succ_pos _
  | case3 seen n c text hFits ih =>
    have hRest := ih h
    rw [byteSize_cons]
    omega
  | _ => cases h

theorem cut_eq_inside_iff : cut [] n text = .inside ↔ Splits n text := by
  cases hCut : cut [] n text with
  | short => exact iff_of_false nofun fun h => Nat.not_lt.mpr h.1 (cut_eq_short_iff.mp hCut)
  | inside =>
    have hLong : ¬ byteSize text < n := fun hShort => by
      simp [cut_eq_short_iff.mpr hShort] at hCut
    refine iff_of_true rfl ⟨Nat.not_lt.mp hLong, fun body rest hText hSize => ?_⟩
    simp [cut_eq_exact_iff.mpr ⟨hText, hSize⟩] at hCut
  | exact body rest =>
    obtain ⟨hText, hSize⟩ := cut_eq_exact_iff.mp hCut
    exact iff_of_false nofun fun h => h.2 body rest hText hSize

theorem Fronts.front_eq {found : Front} (h : Fronts text found) : front text = found := by
  cases h with
  | unheaded hNone => rw [front, splitHeader_eq_none_iff.mpr hNone]
  | short hBlock hLength hShort =>
    simp only [front, splitHeader_eq_some_iff.mpr hBlock, hLength, cut_eq_short_iff.mpr hShort]
  | malformed hBlock hLength => simp only [front, splitHeader_eq_some_iff.mpr hBlock, hLength]
  | split hBlock hLength hSplits =>
    simp only [front, splitHeader_eq_some_iff.mpr hBlock, hLength, cut_eq_inside_iff.mpr hSplits]
  | message hBlock hLength =>
    simp only [front, splitHeader_eq_some_iff.mpr hBlock, hLength, cut_append, List.reverse_nil,
      List.nil_append]

theorem exists_fronts (text : List Char) : ∃ found, Fronts text found := by
  cases hSplit : splitHeader [] text with
  | none => exact ⟨_, .unheaded (splitHeader_eq_none_iff.mp hSplit)⟩
  | some parts =>
    obtain ⟨header, rest⟩ := parts
    have hBlock := splitHeader_eq_some_iff.mp hSplit
    cases hLength : contentLength header with
    | error fault => exact ⟨_, .malformed hBlock hLength⟩
    | ok n =>
      cases hCut : cut [] n rest with
      | short => exact ⟨_, .short hBlock hLength (cut_eq_short_iff.mp hCut)⟩
      | inside => exact ⟨_, .split hBlock hLength (cut_eq_inside_iff.mp hCut)⟩
      | exact body more =>
        obtain ⟨rfl, rfl⟩ := cut_eq_exact_iff.mp hCut
        exact ⟨_, .message hBlock hLength⟩

theorem fronts_iff {found : Front} : Fronts text found ↔ front text = found := by
  refine ⟨Fronts.front_eq, ?_⟩
  rintro rfl
  obtain ⟨found, hFronts⟩ := exists_fronts text
  exact hFronts.front_eq ▸ hFronts

/-- What stands at the front of a text, if it is a message or a fault, is not changed by what
follows. -/
theorem Fronts.append_message (h : Fronts text (.message body rest)) (more : List Char) :
    Fronts (text ++ more) (.message body (rest ++ more)) := by
  cases h with
  | message hBlock hLength => exact .message (List.append_assoc .. ▸ hBlock.append more) hLength

theorem Fronts.append_fault (h : Fronts text (.fault fault)) (more : List Char) :
    Fronts (text ++ more) (.fault fault) := by
  cases h with
  | malformed hBlock hLength => exact .malformed (hBlock.append more) hLength
  | split hBlock hLength hSplits => exact .split (hBlock.append more) hLength (hSplits.append more)

theorem Fronts.length_lt (h : Fronts text (.message body rest)) : rest.length < text.length := by
  cases h with
  | message hBlock =>
    have hLength := hBlock.length
    rw [List.length_append] at hLength
    omega

end EditorBridge.Frame
