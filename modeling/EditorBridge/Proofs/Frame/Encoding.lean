import EditorBridge.Frame.Reader
/-!
Reading undoes framing. A frame begins with a header without a carriage return, so its first blank
line is the one that ends the header, whatever the message says. A text that is a proper prefix of a
frame is never a fault, and a text that begins with a frame is its message and what follows.
-/
namespace EditorBridge.Frame

/-- The header of a frame, without the blank line behind it. -/
def lengthHeader (n : Nat) : List Char := "Content-Length: ".toList ++ Nat.toDigits 10 n

/-- The size of a text in bytes. -/
def byteSize : List Char → Nat
  | [] => 0
  | c :: s => c.utf8Size + byteSize s

@[simp] theorem byteSize_nil : byteSize [] = 0 := rfl

@[simp] theorem byteSize_cons (c : Char) (s : List Char) :
    byteSize (c :: s) = c.utf8Size + byteSize s := rfl

@[simp] theorem byteSize_append (s t : List Char) :
    byteSize (s ++ t) = byteSize s + byteSize t := by
  induction s with
  | nil => simp
  | cons c s ih => simp [ih, Nat.add_assoc]

theorem byteSize_pos {s : List Char} (h : s ≠ []) : 0 < byteSize s := by
  obtain ⟨c, s, rfl⟩ := List.exists_cons_of_ne_nil h
  have hPos := c.utf8Size_pos
  rw [byteSize_cons]
  omega

theorem utf8ByteSize_eq_byteSize (s : String) : s.utf8ByteSize = byteSize s.toList := by
  have hChars (cs : List Char) : (String.ofList cs).utf8ByteSize = byteSize cs := by
    induction cs with
    | nil => rfl
    | cons c cs ih =>
      rw [String.ofList_cons, String.utf8ByteSize_append, String.utf8ByteSize_singleton, ih,
        byteSize_cons]
  simpa using hChars s.toList

theorem toList_toString (n : Nat) : (toString n).toList = Nat.toDigits 10 n := by
  rw [Nat.toString_eq_repr]
  exact Nat.toList_repr

theorem encode_toList (message : String) :
    (encode message).toList = lengthHeader (byteSize message.toList) ++
      ("\r\n\r\n".toList ++ message.toList) := by
  unfold encode lengthHeader
  simp only [String.toList_append, toList_toString, utf8ByteSize_eq_byteSize, List.append_assoc]

theorem isDecimalDigit_of_mem_toDigits {n : Nat} {c : Char} (h : c ∈ Nat.toDigits 10 n) :
    Text.isDecimalDigit c = true := by
  simpa [Text.isDecimalDigit, Char.isDigit, Char.le_def] using
    Nat.isDigit_of_mem_toDigits (by decide) (by decide) h

theorem decimalValue_toDigits (n : Nat) : Text.decimalValue (Nat.toDigits 10 n) = n := by
  have hFold : Text.decimalValue (Nat.toDigits 10 n) =
      Nat.ofDigitChars 10 (Nat.toDigits 10 n) 0 := by
    simp only [Text.decimalValue, Nat.ofDigitChars_eq_foldl, Nat.mul_comm 10]
    rfl
  rw [hFold, Nat.ofDigitChars_ten_toDigits]

/-- The digits of a number within the bound are read as that number. -/
theorem boundedNat?_toDigits {bound n : Nat} (h : n ≤ bound) :
    Text.boundedNat? bound (Nat.toDigits 10 n) = some n := by
  have hAll : (Nat.toDigits 10 n).all Text.isDecimalDigit = true :=
    List.all_eq_true.mpr fun c => isDecimalDigit_of_mem_toDigits
  have hNonempty : Nat.toDigits 10 n ≠ [] := Nat.toDigits_ne_nil
  have hValue := decimalValue_toDigits n
  generalize Nat.toDigits 10 n = digits at hAll hNonempty hValue
  match digits with
  | [] => exact absurd rfl hNonempty
  | c :: digits =>
    have hSign : c ≠ '+' := by
      rintro rfl
      simp [Text.isDecimalDigit] at hAll
    unfold Text.boundedNat?
    split
    · rename_i hSigned
      exact absurd (List.cons.inj hSigned).1 hSign
    · simp only [hAll, hValue, hNonempty, ne_eq, not_false_eq_true, true_and, h, if_pos]

theorem isBlank_eq_false_of_isDecimalDigit {c : Char} (h : Text.isDecimalDigit c = true) :
    Text.isBlank c = false := by
  have hRange : 48 ≤ c.toNat ∧ c.toNat ≤ 57 := by
    simpa [Text.isDecimalDigit, Char.le_def, UInt32.le_iff_toNat_le] using h
  simp [Text.isBlank]
  omega

/-- Trimming keeps a text without blank characters. -/
theorem trimChars_of_not_blank {s : List Char} (h : ∀ c ∈ s, Text.isBlank c = false) :
    Text.trimChars s = s := by
  have hDrop (t : List Char) (hAll : ∀ c ∈ t, Text.isBlank c = false) :
      t.dropWhile Text.isBlank = t := by
    cases t with
    | nil => rfl
    | cons c t => simp [hAll c (by simp)]
  simp [Text.trimChars, Text.trimRightChars, hDrop s h, hDrop s.reverse (by simpa using h)]

/-- Space in front of a text is trimmed as well. -/
theorem trimChars_space (s : List Char) : Text.trimChars (' ' :: s) = Text.trimChars s := by
  have hSpace : Text.isBlank ' ' = true := by decide
  simp [Text.trimChars, hSpace]

/-- A text without a carriage return is one line. -/
theorem lines_of_not_mem {s : List Char} (h : '\r' ∉ s) : lines s = [s] := by
  induction s with
  | nil => rfl
  | cons c s ih =>
    simp only [List.mem_cons, not_or] at h
    unfold lines
    split <;> simp_all

theorem not_mem_lengthHeader (n : Nat) : '\r' ∉ lengthHeader n := by
  intro h
  rcases List.mem_append.mp h with hName | hDigits
  · revert hName
    decide
  · have hDigit := isDecimalDigit_of_mem_toDigits hDigits
    revert hDigit
    decide

theorem splitColon_lengthHeader (n : Nat) : splitColon (lengthHeader n) =
    some ("Content-Length".toList, ' ' :: Nat.toDigits 10 n) := rfl

theorem lengthValue?_lengthHeader (n : Nat) :
    lengthValue? (lengthHeader n) = some (Nat.toDigits 10 n) := by
  have hName : (Text.trimChars "Content-Length".toList).map Char.toLower = lengthName := by decide
  have hValue : Text.trimChars (' ' :: Nat.toDigits 10 n) = Nat.toDigits 10 n := by
    rw [trimChars_space]
    exact trimChars_of_not_blank fun c h =>
      isBlank_eq_false_of_isDecimalDigit (isDecimalDigit_of_mem_toDigits h)
  rw [lengthValue?, splitColon_lengthHeader]
  simp only [hName, hValue, if_true]

/-- The header of a frame gives the length that it was made for. -/
theorem contentLength_lengthHeader {n : Nat} (h : n ≤ maxSize) :
    contentLength (lengthHeader n) = .ok n := by
  have hBound : n ≤ maxLength := Nat.le_trans h (by decide)
  rw [contentLength, lines_of_not_mem (not_mem_lengthHeader n), List.findSome?_cons,
    lengthValue?_lengthHeader]
  simp only [parseLength, boundedNat?_toDigits hBound, if_neg (Nat.not_lt.mpr h)]

/-- Of two ways to part a text, one part goes on at least to where the other ends. -/
theorem append_cases {a b c d : List Char} (h : a ++ b = c ++ d) :
    (∃ e, c = a ++ e ∧ b = e ++ d) ∨ ∃ e, e ≠ [] ∧ a = c ++ e ∧ d = e ++ b := by
  rcases List.append_eq_append_iff.mp h with ⟨e, hc, hb⟩ | ⟨e, ha, hd⟩
  · exact .inl ⟨e, hc, hb⟩
  · by_cases hEmpty : e = []
    · subst hEmpty
      exact .inl ⟨[], by simpa using ha.symm, by simpa using hd.symm⟩
    · exact .inr ⟨e, hEmpty, ha, hd⟩

/-- What stands before the first carriage return belongs to the header. -/
theorem splitHeader_append {header : List Char} (h : '\r' ∉ header) (seen rest : List Char) :
    splitHeader seen (header ++ rest) = splitHeader (header.reverse ++ seen) rest := by
  induction header generalizing seen with
  | nil => rfl
  | cons c header ih =>
    simp only [List.mem_cons, not_or] at h
    have hStep : splitHeader seen (c :: (header ++ rest)) =
        splitHeader (c :: seen) (header ++ rest) := by
      rw [splitHeader]
      rintro - rfl
      exact absurd rfl h.1
    rw [List.cons_append, hStep, ih h.2]
    simp

/-- A text without a carriage return holds no header to its end. -/
theorem splitHeader_of_not_mem {part : List Char} (h : '\r' ∉ part) (seen : List Char) :
    splitHeader seen part = none := by
  rw [← List.append_nil part, splitHeader_append h]
  rfl

/-- Too little of a blank line ends no header. -/
theorem splitHeader_short (seen : List Char) {part more : List Char}
    (h : "\r\n\r\n".toList = part ++ more) (hMore : more ≠ []) : splitHeader seen part = none := by
  have hBlank : "\r\n\r\n".toList = ['\r', '\n', '\r', '\n'] := rfl
  rw [hBlank] at h
  match part with
  | [] => rfl
  | [_] => simp_all [splitHeader]
  | [_, _] => simp_all [splitHeader]
  | [_, _, _] => simp_all [splitHeader]
  | _ :: _ :: _ :: _ :: _ => simp_all

theorem cut_append (seen s rest : List Char) :
    cut seen (byteSize s) (s ++ rest) = .exact (seen.reverse ++ s) rest := by
  induction s generalizing seen with
  | nil => simp [cut]
  | cons c s ih =>
    have hPos : 0 < c.utf8Size := c.utf8Size_pos
    obtain ⟨n, hn⟩ : ∃ n, c.utf8Size + byteSize s = n + 1 := ⟨c.utf8Size + byteSize s - 1, by omega⟩
    rw [byteSize_cons, hn, List.cons_append, cut, if_pos (by omega),
      show n + 1 - c.utf8Size = byteSize s by omega, ih]
    simp

/-- A text is too short for more than its own size. -/
theorem cut_short (seen s : List Char) {n : Nat} (h : byteSize s < n) : cut seen n s = .short := by
  induction s generalizing seen n with
  | nil =>
    obtain ⟨n, rfl⟩ := Nat.exists_eq_succ_of_ne_zero (Nat.ne_of_gt h)
    rfl
  | cons c s ih =>
    have hPos := Nat.lt_of_le_of_lt (Nat.zero_le _) h
    obtain ⟨n, rfl⟩ := Nat.exists_eq_succ_of_ne_zero (Nat.ne_of_gt hPos)
    rw [byteSize_cons] at h
    rw [cut, if_pos (by omega), ih]
    omega

variable {message : String}

/-- A text that begins with a frame is its message and what follows. -/
theorem front_encode_append (hSize : message.utf8ByteSize ≤ maxSize) (rest : List Char) :
    front ((encode message).toList ++ rest) = .message message.toList rest := by
  rw [utf8ByteSize_eq_byteSize] at hSize
  have hSplit (header rest : List Char) (h : '\r' ∉ header) :
      splitHeader [] (header ++ ("\r\n\r\n".toList ++ rest)) = some (header, rest) := by
    rw [splitHeader_append h]
    simp [splitHeader]
  rw [encode_toList, List.append_assoc, List.append_assoc, front,
    hSplit _ _ (not_mem_lengthHeader _)]
  simp only [contentLength_lengthHeader hSize, cut_append, List.reverse_nil, List.nil_append]

/-- A frame of which some is missing is neither a message nor a fault. -/
theorem front_short (hSize : message.utf8ByteSize ≤ maxSize) {part more : List Char}
    (h : (encode message).toList = part ++ more) (hMore : more ≠ []) :
    front part = .incomplete := by
  rw [utf8ByteSize_eq_byteSize] at hSize
  rw [encode_toList] at h
  have hHeader := not_mem_lengthHeader (byteSize message.toList)
  rcases append_cases h with ⟨behind, rfl, hBehind⟩ | ⟨missing, -, hPart, -⟩
  · rcases append_cases hBehind with ⟨body, rfl, hBody⟩ | ⟨missing, hMissing, hBlank, -⟩
    · have hShort : byteSize body < byteSize message.toList := by
        rw [hBody, byteSize_append]
        have hPos := byteSize_pos hMore
        omega
      rw [front, splitHeader_append hHeader]
      simp [splitHeader, contentLength_lengthHeader hSize, cut_short _ _ hShort]
    · rw [front, splitHeader_append hHeader, splitHeader_short _ hBlank hMissing]
  · have hPartial : '\r' ∉ part := fun hMem => hHeader (hPart ▸ List.mem_append_left _ hMem)
    rw [front, splitHeader_of_not_mem hPartial]

/-- The frames of messages one after the other. -/
def stream (messages : List String) : List Char := messages.flatMap fun m => (encode m).toList

@[simp] theorem stream_nil : stream [] = [] := rfl

@[simp] theorem stream_cons (m : String) (messages : List String) :
    stream (m :: messages) = (encode m).toList ++ stream messages := rfl

/-- Of any beginning of a stream, the whole frames are taken and the rest is kept. -/
theorem frames_of_append_eq_stream {messages : List String} {text rest : List Char} {fuel : Nat}
    (hSize : ∀ m ∈ messages, m.utf8ByteSize ≤ maxSize) (h : text ++ rest = stream messages)
    (hFuel : text.length < fuel) :
    ∃ whole later left, frames fuel text = (whole.map String.toList, left, none) ∧
      messages = whole ++ later ∧ left ++ rest = stream later ∧ front left = .incomplete := by
  induction messages generalizing text fuel with
  | nil =>
    obtain ⟨rfl, rfl⟩ := List.append_eq_nil_iff.mp h
    obtain ⟨fuel, rfl⟩ := Nat.exists_eq_succ_of_ne_zero (Nat.ne_of_gt hFuel)
    exact ⟨[], [], [], rfl, rfl, rfl, rfl⟩
  | cons m messages ih =>
    obtain ⟨hFirst, hSize⟩ := List.forall_mem_cons.mp hSize
    obtain ⟨fuel, rfl⟩ := Nat.exists_eq_succ_of_ne_zero (Nat.ne_of_gt (Nat.zero_lt_of_lt hFuel))
    rw [stream_cons] at h
    -- The text holds the whole next frame, or it ends inside it.
    rcases append_cases h.symm with ⟨behind, rfl, hBehind⟩ | ⟨missing, hMissing, hPart, hRest⟩
    · have hShorter : behind.length < fuel := by
        have hLength : 0 < (encode m).toList.length := by
          rw [encode_toList, List.length_append, List.length_append]
          exact Nat.add_pos_right _ (Nat.add_pos_left (by decide) _)
        simp only [List.length_append] at hFuel
        omega
      obtain ⟨whole, later, left, hFrames, rfl, hLeft, hFront⟩ := ih hSize hBehind.symm hShorter
      refine ⟨m :: whole, later, left, ?_, rfl, hLeft, hFront⟩
      rw [frames, front_encode_append hFirst]
      simp only [hFrames, List.map_cons]
    · have hFront := front_short hFirst hPart hMissing
      refine ⟨[], m :: messages, text, ?_, rfl, h, hFront⟩
      rw [frames, hFront]
      rfl

end EditorBridge.Frame
