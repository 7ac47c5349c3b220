import EditorBridge.Proofs.Text.Lossy
/-!
Which byte strings are the bytes of a text. A line feed is no part of a longer sequence, so a stream
is well-formed exactly if each of its lines is; and where a byte string is not, its lossy text shows
it.
-/
namespace EditorBridge.Utf8

theorem decode?_eq_some_iff {bytes : List UInt8} {text : List Char} :
    decode? bytes = some text ↔ encode text = bytes := by
  constructor
  · intro h
    unfold decode? at h
    obtain ⟨⟨-, hBytes⟩, hText⟩ := Option.ite_none_right_eq_some.mp h
    rw [← Option.some.inj hText]
    exact hBytes
  · rintro rfl
    unfold decode?
    rw [feed_encode]
    exact if_pos ⟨rfl, rfl⟩

/-- Is this the encoding of a text? -/
def isText (bytes : List UInt8) : Bool := (decode? bytes).isSome

theorem isText_iff {bytes : List UInt8} : isText bytes = true ↔ ∃ text, encode text = bytes := by
  simp only [isText, Option.isSome_iff_exists, decode?_eq_some_iff]

theorem isText_nil : isText [] = true := isText_iff.mpr ⟨[], rfl⟩

theorem encode_append (text more : List Char) : encode (text ++ more) = encode text ++ encode more :=
  List.flatMap_append

theorem isText_encodeChar_append (c : Char) {rest : List UInt8} (h : isText rest = true) :
    isText (encodeChar c ++ rest) = true := by
  obtain ⟨text, rfl⟩ := isText_iff.mp h
  exact isText_iff.mpr ⟨c :: text, rfl⟩

theorem lossy_encode (text : List Char) : lossy (encode text) = text := by
  induction text with
  | nil => simp [encode, lossy]
  | cons c text ih =>
    have hCons : encode (c :: text) = encodeChar c ++ encode text := rfl
    rw [hCons, lossy_encodeChar_append, ih]

theorem replacement_mem_lossy {bytes : List UInt8} (h : isText bytes = false) :
    replacement ∈ lossy bytes := by
  obtain ⟨pieces, stub, hReads⟩ := exists_reads bytes
  induction hReads with
  | done =>
    rw [isText_nil] at h
    cases h
  | unfinished hStub => simp [hStub.lossy_eq]
  | character c _ ih =>
    rw [lossy_encodeChar_append]
    apply List.mem_cons_of_mem
    apply ih
    rw [← Bool.not_eq_true]
    intro hRest
    rw [isText_encodeChar_append c hRest] at h
    cases h
  | broken hPart _ _ => simp [hPart.lossy_append]

theorem encodeChar_lineFeed : encodeChar '\n' = [10] := by decide

/-- The byte of a line feed stands for a line feed only. -/
theorem eq_lineFeed_of_mem {c : Char} (h : 10 ∈ encodeChar c) : c = '\n' := by
  have hTen : (10 : UInt8).toNat = 10 := rfl
  have hByte (v : Nat) : 10 = UInt8.ofNat v ↔ 10 = v % 256 := by
    rw [← UInt8.toNat_inj, UInt8.toNat_ofNat', hTen]
  rw [encodeChar_eq] at h
  split_ifs at h with hOne
  · rw [List.mem_singleton, hByte, Nat.mod_eq_of_lt (by omega)] at h
    exact Char.toNat_inj.mp h.symm
  -- The bytes of all other characters have the highest bit.
  all_goals
    simp only [List.mem_cons, List.not_mem_nil, or_false, hByte] at h
    omega

/-- A text with a line feed in its bytes has it between two texts. -/
theorem exists_texts_of_encode {text : List Char} {line rest : List UInt8}
    (h : encode text = line ++ 10 :: rest) :
    ∃ before behind, encode before = line ∧ encode behind = rest := by
  induction text generalizing line with
  | nil => simp [encode] at h
  | cons c text ih =>
    have hCons : encode (c :: text) = encodeChar c ++ encode text := rfl
    rw [hCons] at h
    rcases List.append_eq_append_iff.mp h with ⟨more, rfl, hText⟩ | ⟨more, hChar, hRest⟩
    · obtain ⟨before, behind, hBefore, hBehind⟩ := ih hText
      refine ⟨c :: before, behind, ?_, hBehind⟩
      rw [← hBefore]
      rfl
    · cases more with
      | nil =>
        have hNext : encode text = [] ++ 10 :: rest := hRest.symm
        obtain ⟨before, behind, hBefore, hBehind⟩ := ih hNext
        refine ⟨c :: before, behind, ?_, hBehind⟩
        rw [show encode (c :: before) = encodeChar c ++ encode before from rfl, hBefore, hChar]
        simp
      | cons b more =>
        -- The character that holds the line feed is the line feed.
        obtain ⟨rfl, hBehind⟩ := List.cons.inj hRest
        obtain rfl := eq_lineFeed_of_mem (c := c) (by simp [hChar])
        rw [encodeChar_lineFeed] at hChar
        cases line with
        | nil =>
          obtain rfl := (List.cons.inj hChar).2
          exact ⟨[], text, rfl, hBehind.symm⟩
        | cons b line => simp at hChar

theorem isText_append_lineFeed (line rest : List UInt8) :
    isText (line ++ 10 :: rest) = (isText line && isText rest) := by
  rw [Bool.eq_iff_iff, Bool.and_eq_true]
  constructor
  · intro h
    obtain ⟨text, hText⟩ := isText_iff.mp h
    obtain ⟨before, behind, hBefore, hBehind⟩ := exists_texts_of_encode hText
    exact ⟨isText_iff.mpr ⟨before, hBefore⟩, isText_iff.mpr ⟨behind, hBehind⟩⟩
  · rintro ⟨hLine, hRest⟩
    obtain ⟨before, rfl⟩ := isText_iff.mp hLine
    obtain ⟨behind, rfl⟩ := isText_iff.mp hRest
    refine isText_iff.mpr ⟨before ++ '\n' :: behind, ?_⟩
    rw [encode_append]
    rfl

end EditorBridge.Utf8
