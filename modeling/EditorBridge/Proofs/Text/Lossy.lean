import EditorBridge.Proofs.Text.Sequences
/-!
What a byte string says. It falls into characters and broken parts, with at most one stub behind
them, in exactly one way. Its lossy text has the characters, one U+FFFD for each broken part, and
one for the stub. A stub that more bytes follow may become part of a character, so only what stands
before it is final.
-/
namespace EditorBridge.Utf8

/-- A stretch of a byte string of which more bytes behind it change nothing. -/
inductive Piece where
  | character (c : Char)
  | broken (part : List UInt8)
deriving DecidableEq, Repr

namespace Piece

def char : Piece → Char
  | character c => c
  | broken _ => replacement

def bytes : Piece → List UInt8
  | character c => encodeChar c
  | broken part => part

end Piece

/-- A byte string falls into pieces and a stub behind them, if it ends in one. -/
inductive Reads : List UInt8 → List Piece → List UInt8 → Prop
  | done : Reads [] [] []
  | unfinished {stub : List UInt8} (h : Stub stub) : Reads stub [] stub
  | character {rest stub : List UInt8} {pieces : List Piece} (c : Char)
      (hRest : Reads rest pieces stub) :
      Reads (encodeChar c ++ rest) (.character c :: pieces) stub
  | broken {part rest stub : List UInt8} {pieces : List Piece} (hPart : Broken part rest)
      (hRest : Reads rest pieces stub) : Reads (part ++ rest) (.broken part :: pieces) stub

/-- The text of pieces. -/
def textOf (pieces : List Piece) : List Char := pieces.map Piece.char

/-- The pieces of a byte string, and the stub behind them. -/
def piecesOf (bytes : List UInt8) : List Piece × List UInt8 :=
  match bytes with
  | [] => ([], [])
  | b :: rest =>
    match lead b rest with
    | .whole n =>
      let (pieces, stub) := piecesOf (rest.drop n)
      (.character (Char.ofNat (codePoint (leadBits b n) (rest.take n))) :: pieces, stub)
    | .invalid k =>
      let (pieces, stub) := piecesOf (rest.drop k)
      (.broken (b :: rest.take k) :: pieces, stub)
    | .unfinished => ([], b :: rest)
termination_by bytes.length
decreasing_by all_goals simp; try omega

variable {bytes rest more part stub stub' : List UInt8} {pieces pieces' : List Piece}

theorem piecesOf_encodeChar_append (c : Char) (rest : List UInt8) :
    piecesOf (encodeChar c ++ rest) = (.character c :: (piecesOf rest).1, (piecesOf rest).2) := by
  obtain ⟨first, tail, hBytes, hLead, hValue⟩ := lead_encodeChar c rest
  rw [hBytes, List.cons_append, piecesOf, hLead]
  simp only [List.take_left, List.drop_left, hValue, Char.ofNat_toNat]

theorem Broken.piecesOf_append (h : Broken part rest) :
    piecesOf (part ++ rest) = (.broken part :: (piecesOf rest).1, (piecesOf rest).2) := by
  obtain ⟨first, behind, rfl, hLead⟩ := h.lead
  rw [List.cons_append, piecesOf, hLead]
  simp only [List.take_left, List.drop_left]

theorem Stub.piecesOf_eq (h : Stub part) : piecesOf part = ([], part) := by
  obtain ⟨first, behind, rfl, hLead⟩ := h.lead
  rw [piecesOf, hLead]

theorem reads_piecesOf (bytes : List UInt8) :
    Reads bytes (piecesOf bytes).1 (piecesOf bytes).2 := by
  induction hLength : bytes.length using Nat.strongRecOn generalizing bytes with
  | ind size ih =>
    match bytes with
    | [] =>
      rw [piecesOf]
      exact .done
    | b :: rest =>
      rw [List.length_cons] at hLength
      have hShorter (n : Nat) : (rest.drop n).length < size := by
        rw [List.length_drop]
        omega
      cases hLead : lead b rest with
      | whole n =>
        obtain ⟨c, hCharacter⟩ := exists_encodeChar_of_whole hLead
        have hBytes : b :: rest = encodeChar c ++ rest.drop n := by
          rw [hCharacter, List.cons_append, List.take_append_drop]
        rw [hBytes, piecesOf_encodeChar_append]
        exact .character c (ih _ (hShorter n) _ rfl)
      | invalid k =>
        have hPart := Broken.of_lead hLead
        have hBytes : b :: rest = b :: rest.take k ++ rest.drop k := by
          rw [List.cons_append, List.take_append_drop]
        rw [hBytes, hPart.piecesOf_append]
        exact .broken hPart (ih _ (hShorter k) _ rfl)
      | unfinished =>
        have hStub := stub_cons_iff.mpr hLead
        rw [hStub.piecesOf_eq]
        exact .unfinished hStub

theorem exists_reads (bytes : List UInt8) : ∃ pieces stub, Reads bytes pieces stub :=
  ⟨_, _, reads_piecesOf bytes⟩

/-- A byte string falls into pieces in exactly one way. -/
theorem reads_iff : Reads bytes pieces stub ↔ piecesOf bytes = (pieces, stub) := by
  constructor
  · intro h
    induction h with
    | done => simp [piecesOf]
    | unfinished h => exact h.piecesOf_eq
    | character c _ ih => rw [piecesOf_encodeChar_append, ih]
    | broken hPart _ ih => rw [hPart.piecesOf_append, ih]
  · intro h
    have hReads := reads_piecesOf bytes
    rw [h] at hReads
    exact hReads

namespace Reads

theorem bytes_eq (h : Reads bytes pieces stub) : bytes = pieces.flatMap Piece.bytes ++ stub := by
  induction h with
  | done => rfl
  | unfinished => rfl
  | character c _ ih =>
    rw [List.flatMap_cons, List.append_assoc, ← ih]
    rfl
  | broken _ _ ih =>
    rw [List.flatMap_cons, List.append_assoc, ← ih]
    rfl

theorem stub_or_nil (h : Reads bytes pieces stub) : stub = [] ∨ Stub stub := by
  induction h with
  | done => exact .inl rfl
  | unfinished h => exact .inr h
  | character _ _ ih => exact ih
  | broken _ _ ih => exact ih

theorem stub_length_le (h : Reads bytes pieces stub) : stub.length ≤ 3 := by
  rcases h.stub_or_nil with rfl | hStub
  · exact Nat.zero_le 3
  · exact hStub.length_le

/-- Reading a stub or nothing gives no piece. -/
theorem of_stub (h : stub = [] ∨ Stub stub) : Reads stub [] stub := by
  rcases h with rfl | h
  · exact .done
  · exact .unfinished h

theorem unique (h : Reads bytes pieces stub) (h' : Reads bytes pieces' stub') :
    pieces' = pieces ∧ stub' = stub :=
  Prod.mk.inj ((reads_iff.mp h').symm.trans (reads_iff.mp h))

/-- With more bytes, the pieces stay, and reading goes on from the stub. -/
theorem append (h : Reads bytes pieces stub) (hMore : Reads (stub ++ more) pieces' stub') :
    Reads (bytes ++ more) (pieces ++ pieces') stub' := by
  induction h with
  | done => exact hMore
  | unfinished => exact hMore
  | character c _ ih =>
    rw [List.append_assoc]
    exact .character c (ih hMore)
  | broken hPart _ ih =>
    rw [List.append_assoc]
    exact .broken (hPart.append more) (ih hMore)

end Reads

theorem lossy_cons (b : UInt8) (rest : List UInt8) : lossy (b :: rest) =
    match lead b rest with
    | .whole n => Char.ofNat (codePoint (leadBits b n) (rest.take n)) :: lossy (rest.drop n)
    | .invalid k => replacement :: lossy (rest.drop k)
    | .unfinished => [replacement] := by
  rw [lossy, lead]
  cases following? b with
  | none => rfl
  | some n =>
    have hNothing : lossy (rest.drop rest.length) = [] := by simp [lossy]
    by_cases hWhole : continuations (secondLow b) (secondHigh b) n rest = n
    · simp only [hWhole, if_true]
    · by_cases hAll : continuations (secondLow b) (secondHigh b) n rest = rest.length
      · rw [hAll] at hWhole
        simp only [hAll, hWhole, hNothing, if_true, if_false]
      · simp only [hWhole, hAll, if_false]

theorem lossy_encodeChar_append (c : Char) (rest : List UInt8) :
    lossy (encodeChar c ++ rest) = c :: lossy rest := by
  obtain ⟨first, tail, hBytes, hLead, hValue⟩ := lead_encodeChar c rest
  rw [hBytes, List.cons_append, lossy_cons, hLead]
  simp only [List.take_left, List.drop_left, hValue, Char.ofNat_toNat]

theorem Broken.lossy_append (h : Broken part rest) :
    lossy (part ++ rest) = replacement :: lossy rest := by
  obtain ⟨first, behind, rfl, hLead⟩ := h.lead
  rw [List.cons_append, lossy_cons, hLead]
  simp only [List.drop_left]

theorem Stub.lossy_eq (h : Stub part) : lossy part = [replacement] := by
  obtain ⟨first, behind, rfl, hLead⟩ := h.lead
  rw [lossy_cons, hLead]

/-- The lossy text has the text of the pieces, and one U+FFFD for the stub. -/
theorem Reads.lossy_eq (h : Reads bytes pieces stub) :
    lossy bytes = textOf pieces ++ if stub = [] then [] else [replacement] := by
  induction h with
  | done => simp [lossy, textOf]
  | unfinished h => simp [h.lossy_eq, h.nonempty, textOf]
  | character c _ ih =>
    rw [lossy_encodeChar_append, ih]
    rfl
  | broken hPart _ ih =>
    rw [hPart.lossy_append, ih]
    rfl

/-- A byte that begins a sequence continues none. -/
theorem continuations_append_first {low high b : UInt8} {n m : Nat} (hFirst : following? b = some m)
    (hLow : 0x80 ≤ low.toNat) (hHigh : high.toNat ≤ 0xbf)
    (h : continuations low high n bytes = bytes.length) (more : List UInt8) :
    continuations low high n (bytes ++ b :: more) = bytes.length := by
  have hStop : b.toNat < 0x80 ∨ 0xbf < b.toNat := by
    rw [following?_eq] at hFirst
    split_ifs at hFirst <;> omega
  induction bytes generalizing low high n with
  | nil =>
    cases n with
    | zero => rfl
    | succ n =>
      rw [List.nil_append, continuations_cons, if_neg (by omega)]
      rfl
  | cons x bytes ih =>
    cases n with
    | zero => simp [continuations] at h
    | succ n =>
      by_cases hRange : low ≤ x ∧ x ≤ high
      · rw [continuations, if_pos hRange, List.length_cons, Nat.add_right_cancel_iff] at h
        rw [List.cons_append, continuations, if_pos hRange, ih (by decide) (by decide) h]
        rfl
      · simp [continuations, hRange] at h

/-- A stub that a character follows is broken. -/
theorem Stub.broken (h : Stub stub) (c : Char) (more : List UInt8) :
    Broken stub (encodeChar c ++ more) := by
  obtain ⟨first, behind, rfl, hLead⟩ := h.lead
  obtain ⟨next, tail, hBytes, hNext, -⟩ := lead_encodeChar c more
  obtain ⟨n, hFirst, hShort, hTail⟩ := lead_eq_unfinished_iff.mp hLead
  have hLow : 0x80 ≤ (secondLow first).toNat := by
    rw [secondLow_toNat]
    split_ifs <;> omega
  have hHigh : (secondHigh first).toNat ≤ 0xbf := by
    rw [secondHigh_toNat]
    split_ifs <;> omega
  rw [hBytes, List.cons_append, broken_cons_iff, lead_eq_invalid_iff]
  refine .inr ⟨n, hFirst, hShort, ?_, ?_⟩
  · rw [List.length_append, List.length_cons]
    omega
  · exact continuations_append_first (lead_eq_whole_iff.mp hNext).1 hLow hHigh hTail (tail ++ more)

/-- Before a character, a byte string gives its whole lossy text. -/
theorem Reads.append_character {c : Char} (h : Reads bytes pieces stub)
    (hNext : Reads (encodeChar c ++ more) pieces' stub') :
    ∃ all, Reads (bytes ++ (encodeChar c ++ more)) all stub' ∧
      textOf all = lossy bytes ++ textOf pieces' := by
  rw [h.lossy_eq]
  rcases h.stub_or_nil with rfl | hStub
  · exact ⟨_, h.append hNext, by simp [textOf]⟩
  · refine ⟨_, h.append (.broken (hStub.broken c more) hNext), ?_⟩
    simp [textOf, hStub.nonempty, Piece.char]

end EditorBridge.Utf8
