import EditorBridge.Text.Accumulator
import EditorBridge.Proofs.Text.Utf8
/-!
What byte strings hold. A well-formed sequence is what a character is encoded as; a stub is what is
there of one that is cut off; and where neither a sequence begins nor a stub is all that is left,
the longest stub, or else one byte, is broken. These notions mention encoding alone. `lead`, which
looks at byte ranges, tells the three apart, and every byte string falls into characters, broken
parts and at most one stub behind them in exactly one way.
-/
namespace EditorBridge.Utf8

variable {low high b : UInt8} {n k : Nat} {bytes rest more part tail : List UInt8}

theorem continuations_nil (low high : UInt8) (n : Nat) : continuations low high n [] = 0 := by
  cases n <;> rfl

theorem continuations_le (low high : UInt8) (n : Nat) (bytes : List UInt8) :
    continuations low high n bytes ≤ n ∧ continuations low high n bytes ≤ bytes.length := by
  induction bytes generalizing low high n with
  | nil => cases n <;> simp [continuations]
  | cons x bytes ih =>
    cases n with
    | zero => simp [continuations]
    | succ n =>
      obtain ⟨hMissing, hThere⟩ := ih 0x80 0xbf n
      rw [continuations]
      split
      · exact ⟨Nat.succ_le_succ hMissing, Nat.succ_le_succ hThere⟩
      · simp

/-- A byte that breaks a sequence off breaks it off in every longer text. -/
theorem continuations_append_of_lt (more : List UInt8)
    (h : continuations low high n bytes < bytes.length) :
    continuations low high n (bytes ++ more) = continuations low high n bytes := by
  induction bytes generalizing low high n with
  | nil => simp at h
  | cons x bytes ih =>
    cases n with
    | zero => simp [continuations]
    | succ n =>
      rw [List.cons_append, continuations, continuations]
      rw [continuations, List.length_cons] at h
      split
      · rename_i hRange
        rw [if_pos hRange] at h
        rw [ih (Nat.lt_of_succ_lt_succ h)]
      · rfl

/-- The bytes in front all continue a sequence exactly if they do so on their own. -/
theorem length_le_continuations_append :
    bytes.length ≤ continuations low high n (bytes ++ more) ↔
      continuations low high n bytes = bytes.length := by
  induction bytes generalizing low high n with
  | nil => cases n <;> simp [continuations]
  | cons x bytes ih =>
    cases n with
    | zero => simp [continuations]
    | succ n =>
      rw [List.cons_append, continuations, continuations, List.length_cons]
      split
      · rw [Nat.add_le_add_iff_right, ih, Nat.add_right_cancel_iff]
      · simp

/-- A sequence that is unfinished can be finished: the least bytes of the ranges do it. -/
theorem exists_completion (hRange : low ≤ high)
    (h : continuations low high n bytes = bytes.length) :
    ∃ more, bytes.length + more.length = n ∧ continuations low high n (bytes ++ more) = n := by
  have hTail : (0x80 : UInt8) ≤ 0xbf := by decide
  induction n generalizing low high bytes with
  | zero =>
    obtain rfl : bytes = [] := List.eq_nil_of_length_eq_zero h.symm
    exact ⟨[], rfl, rfl⟩
  | succ n ih =>
    match bytes with
    | [] =>
      obtain ⟨more, hLength, hMore⟩ := ih hTail (continuations_nil _ _ n)
      refine ⟨low :: more, by simpa using hLength, ?_⟩
      rw [List.nil_append] at hMore ⊢
      rw [continuations, if_pos ⟨UInt8.le_refl low, hRange⟩, hMore]
    | x :: bytes =>
      by_cases hFirst : low ≤ x ∧ x ≤ high
      · rw [continuations, if_pos hFirst, List.length_cons, Nat.add_right_cancel_iff] at h
        obtain ⟨more, hLength, hMore⟩ := ih hTail h
        refine ⟨more, by rw [List.length_cons]; omega, ?_⟩
        rw [List.cons_append, continuations, if_pos hFirst, hMore]
      · simp [continuations, hFirst] at h

theorem secondLow_le_secondHigh (b : UInt8) : secondLow b ≤ secondHigh b := by
  rw [UInt8.le_iff_toNat_le, secondLow_toNat, secondHigh_toNat]
  split_ifs <;> omega

theorem lead_eq_whole_iff :
    lead b rest = .whole n ↔
      following? b = some n ∧ continuations (secondLow b) (secondHigh b) n rest = n := by
  unfold lead
  cases following? b with
  | none => simp
  | some m =>
    simp only [Option.some.injEq]
    split_ifs <;> grind

theorem lead_eq_unfinished_iff :
    lead b rest = .unfinished ↔ ∃ n, following? b = some n ∧ rest.length < n ∧
      continuations (secondLow b) (secondHigh b) n rest = rest.length := by
  unfold lead
  cases following? b with
  | none => simp
  | some m =>
    have hBound := continuations_le (secondLow b) (secondHigh b) m rest
    simp only [Option.some.injEq]
    split_ifs <;> grind

theorem lead_eq_invalid_iff :
    lead b rest = .invalid k ↔ following? b = none ∧ k = 0 ∨
      ∃ n, following? b = some n ∧ k < n ∧ k < rest.length ∧
        continuations (secondLow b) (secondHigh b) n rest = k := by
  unfold lead
  cases following? b with
  | none => simp [eq_comm]
  | some m =>
    have hBound := continuations_le (secondLow b) (secondHigh b) m rest
    simp only [Option.some.injEq]
    split_ifs <;> grind

theorem le_length_of_lead_invalid (h : lead b rest = .invalid k) : k ≤ rest.length := by
  rcases lead_eq_invalid_iff.mp h with ⟨-, rfl⟩ | ⟨n, -, -, hThere, -⟩
  · exact Nat.zero_le _
  · exact Nat.le_of_lt hThere

/-- The bytes of a character begin a whole sequence, whatever follows. -/
theorem lead_encodeChar (c : Char) (rest : List UInt8) :
    ∃ first tail, encodeChar c = first :: tail ∧ lead first (tail ++ rest) = .whole tail.length ∧
      codePoint (leadBits first tail.length) tail = c.toNat := by
  obtain ⟨first, tail, hBytes, hSequence⟩ := encodeChar_sequence c
  exact ⟨first, tail, hBytes, lead_eq_whole_iff.mpr ⟨hSequence.asks, hSequence.follows rest⟩,
    hSequence.denotes⟩

theorem toNat_range {x : UInt8} (h : low ≤ x ∧ x ≤ high) :
    low.toNat ≤ x.toNat ∧ x.toNat ≤ high.toNat :=
  ⟨UInt8.le_iff_toNat_le.mp h.1, UInt8.le_iff_toNat_le.mp h.2⟩

theorem ofNat_eq {x : UInt8} {v : Nat} (h : v = x.toNat) : UInt8.ofNat v = x := by
  rw [h, UInt8.ofNat_toNat]

theorem toNat_ofNat_of_valid {v : Nat} (h : v < 0xd800 ∨ 0xdfff < v ∧ v < 0x110000) :
    (Char.ofNat v).toNat = v := by
  have hValid : v.isValidChar := h
  rw [Char.ofNat, dif_pos hValid]
  rfl

theorem whole_one (hFirst : b.toNat < 0x80) : encodeChar (Char.ofNat b.toNat) = [b] := by
  rw [encodeChar_eq, toNat_ofNat_of_valid (by omega), if_pos (by omega), ofNat_eq rfl]

theorem whole_two {x : UInt8} (hFirst : 0xc2 ≤ b.toNat ∧ b.toNat ≤ 0xdf)
    (hx : 0x80 ≤ x.toNat ∧ x.toNat ≤ 0xbf) :
    encodeChar (Char.ofNat (b.toNat % 32 * 64 + x.toNat % 64)) = [b, x] := by
  rw [encodeChar_eq, toNat_ofNat_of_valid (by omega), if_neg (by omega), if_pos (by omega),
    ofNat_eq (x := b) (by omega), ofNat_eq (x := x) (by omega)]

/-- The second byte keeps out longer forms of smaller code points, and surrogates. -/
theorem whole_three {x y : UInt8} (hFirst : 0xe0 ≤ b.toNat ∧ b.toNat ≤ 0xef)
    (hLow : b.toNat = 0xe0 → 0xa0 ≤ x.toNat) (hHigh : b.toNat = 0xed → x.toNat ≤ 0x9f)
    (hx : 0x80 ≤ x.toNat ∧ x.toNat ≤ 0xbf) (hy : 0x80 ≤ y.toNat ∧ y.toNat ≤ 0xbf) :
    encodeChar (Char.ofNat ((b.toNat % 16 * 64 + x.toNat % 64) * 64 + y.toNat % 64)) =
      [b, x, y] := by
  rw [encodeChar_eq, toNat_ofNat_of_valid (by omega), if_neg (by omega), if_neg (by omega),
    if_pos (by omega), ofNat_eq (x := b) (by omega), ofNat_eq (x := x) (by omega),
    ofNat_eq (x := y) (by omega)]

/-- The second byte keeps out longer forms of smaller code points, and all beyond U+10FFFF. -/
theorem whole_four {x y z : UInt8} (hFirst : 0xf0 ≤ b.toNat ∧ b.toNat ≤ 0xf4)
    (hLow : b.toNat = 0xf0 → 0x90 ≤ x.toNat) (hHigh : b.toNat = 0xf4 → x.toNat ≤ 0x8f)
    (hx : 0x80 ≤ x.toNat ∧ x.toNat ≤ 0xbf) (hy : 0x80 ≤ y.toNat ∧ y.toNat ≤ 0xbf)
    (hz : 0x80 ≤ z.toNat ∧ z.toNat ≤ 0xbf) :
    encodeChar (Char.ofNat (((b.toNat % 8 * 64 + x.toNat % 64) * 64 + y.toNat % 64) * 64 +
      z.toNat % 64)) = [b, x, y, z] := by
  rw [encodeChar_eq, toNat_ofNat_of_valid (by omega), if_neg (by omega), if_neg (by omega),
    if_neg (by omega), ofNat_eq (x := b) (by omega), ofNat_eq (x := x) (by omega),
    ofNat_eq (x := y) (by omega), ofNat_eq (x := z) (by omega)]

/-- A whole sequence is the bytes of a character. -/
theorem exists_encodeChar_of_whole (h : lead b rest = .whole n) :
    ∃ c, encodeChar c = b :: rest.take n := by
  obtain ⟨hFirst, hTail⟩ := lead_eq_whole_iff.mp h
  have hThere : n ≤ rest.length := hTail ▸ (continuations_le _ _ n rest).2
  rw [following?_eq] at hFirst
  have hLow := secondLow_toNat b
  have hHigh := secondHigh_toNat b
  match n, rest with
  | 0, rest => exact ⟨_, whole_one (by split_ifs at hFirst <;> simp_all)⟩
  | 1, x :: rest =>
    obtain ⟨hx, -⟩ := continuations_all hTail
    have hx := toNat_range hx
    have hTwo : 0xc2 ≤ b.toNat ∧ b.toNat ≤ 0xdf := by split_ifs at hFirst <;> simp_all
    exact ⟨_, whole_two hTwo (by split_ifs at hLow hHigh <;> omega)⟩
  | 2, x :: y :: rest =>
    obtain ⟨hx, hTail⟩ := continuations_all hTail
    obtain ⟨hy, -⟩ := continuations_all hTail
    have hx := toNat_range hx
    have hThree : 0xe0 ≤ b.toNat ∧ b.toNat ≤ 0xef := by split_ifs at hFirst <;> simp_all
    exact ⟨_, whole_three hThree (by split_ifs at hLow <;> omega) (by split_ifs at hHigh <;> omega)
      (by split_ifs at hLow hHigh <;> omega) (toNat_range hy)⟩
  | 3, x :: y :: z :: rest =>
    obtain ⟨hx, hTail⟩ := continuations_all hTail
    obtain ⟨hy, hTail⟩ := continuations_all hTail
    obtain ⟨hz, -⟩ := continuations_all hTail
    have hx := toNat_range hx
    have hFour : 0xf0 ≤ b.toNat ∧ b.toNat ≤ 0xf4 := by split_ifs at hFirst <;> simp_all
    exact ⟨_, whole_four hFour (by split_ifs at hLow <;> omega) (by split_ifs at hHigh <;> omega)
      (by split_ifs at hLow hHigh <;> omega) (toNat_range hy) (toNat_range hz)⟩
  | 1, [] | 2, [] | 2, [_] | 3, [] | 3, [_] | 3, [_, _] => simp at hThere
  | n + 4, rest => split_ifs at hFirst <;> simp_all

/-- Some bytes of a character, from its first one on, but not all of them. -/
structure Stub (part : List UInt8) : Prop where
  nonempty : part ≠ []
  cut : ∃ c more, more ≠ [] ∧ encodeChar c = part ++ more

/-- The maximal invalid part in front of `rest`: no character begins there and more bytes cannot
make one, and of all that begins there, it is the longest stub, or else one byte. -/
structure Broken (part rest : List UInt8) : Prop where
  nonempty : part ≠ []
  no_character : ∀ c more, encodeChar c ++ more ≠ part ++ rest
  no_stub : ¬ Stub (part ++ rest)
  begun : Stub part ∨ part.length = 1
  longest : ∀ other more, other ++ more = part ++ rest → Stub other → other.length ≤ part.length

/-- A stub is what the ranges of bytes leave unfinished. -/
theorem stub_cons_iff : Stub (b :: rest) ↔ lead b rest = .unfinished := by
  rw [lead_eq_unfinished_iff]
  constructor
  · rintro ⟨-, c, more, hMore, hBytes⟩
    obtain ⟨first, tail, hCharacter, hLead, -⟩ := lead_encodeChar c []
    rw [hCharacter, List.cons_append] at hBytes
    obtain ⟨rfl, rfl⟩ := List.cons.inj hBytes
    obtain ⟨hFirst, hTail⟩ := lead_eq_whole_iff.mp hLead
    rw [List.append_nil] at hTail
    have hPos := List.length_pos_iff.mpr hMore
    rw [List.length_append] at hFirst hTail
    refine ⟨_, hFirst, by omega, ?_⟩
    exact length_le_continuations_append.mp (hTail ▸ Nat.le_add_right _ _)
  · rintro ⟨n, hFirst, hShort, hTail⟩
    obtain ⟨more, hLength, hMore⟩ := exists_completion (secondLow_le_secondHigh b) hTail
    obtain ⟨c, hBytes⟩ := exists_encodeChar_of_whole (lead_eq_whole_iff.mpr ⟨hFirst, hMore⟩)
    rw [List.take_of_length_le (by rw [List.length_append]; omega)] at hBytes
    refine ⟨List.cons_ne_nil _ _, c, more, ?_, hBytes⟩
    rintro rfl
    rw [List.length_nil] at hLength
    omega

theorem Stub.lead (h : Stub part) :
    ∃ first behind, part = first :: behind ∧ Utf8.lead first behind = .unfinished := by
  obtain ⟨first, behind, rfl⟩ := List.exists_cons_of_ne_nil h.nonempty
  exact ⟨first, behind, rfl, stub_cons_iff.mp h⟩

/-- All bytes of a stub behind its first one continue a sequence, also within a longer text. -/
theorem Stub.continues (h : Stub (b :: part)) (more : List UInt8) :
    ∃ n, following? b = some n ∧
      part.length ≤ continuations (secondLow b) (secondHigh b) n (part ++ more) := by
  obtain ⟨n, hFirst, -, hAll⟩ := lead_eq_unfinished_iff.mp (stub_cons_iff.mp h)
  exact ⟨n, hFirst, length_le_continuations_append.mpr hAll⟩

/-- What the ranges of bytes find invalid is a maximal invalid part. -/
theorem Broken.of_invalid (h : lead b (part ++ rest) = .invalid part.length) :
    Broken (b :: part) rest := by
  have hInvalid := lead_eq_invalid_iff.mp h
  constructor
  · exact List.cons_ne_nil _ _
  · intro c more hSame
    obtain ⟨first, tail, hCharacter, hLead, -⟩ := lead_encodeChar c more
    rw [hCharacter, List.cons_append, List.cons_append] at hSame
    obtain ⟨rfl, hTail⟩ := List.cons.inj hSame
    rw [hTail, h] at hLead
    cases hLead
  · rw [List.cons_append, stub_cons_iff, h]
    exact Lead.noConfusion
  · rcases hInvalid with ⟨-, hNone⟩ | ⟨n, hFirst, hShort, -, hTail⟩
    · exact .inr (by rw [List.length_cons, hNone])
    · refine .inl (stub_cons_iff.mpr (lead_eq_unfinished_iff.mpr ⟨n, hFirst, hShort, ?_⟩))
      exact length_le_continuations_append.mp (Nat.le_of_eq hTail.symm)
  · intro other more hSame hStub
    obtain ⟨first, other, rfl⟩ := List.exists_cons_of_ne_nil hStub.nonempty
    rw [List.cons_append, List.cons_append] at hSame
    obtain ⟨rfl, hOther⟩ := List.cons.inj hSame
    obtain ⟨n, hFirst, hLonger⟩ := hStub.continues more
    rw [hOther] at hLonger
    rcases hInvalid with ⟨hNone, -⟩ | ⟨n', hFirst', -, -, hTail⟩
    · rw [hNone] at hFirst
      cases hFirst
    · obtain rfl : n = n' := Option.some.inj (hFirst.symm.trans hFirst')
      rw [hTail] at hLonger
      exact Nat.succ_le_succ hLonger

theorem Broken.of_lead (h : lead b rest = .invalid k) :
    Broken (b :: rest.take k) (rest.drop k) := by
  apply Broken.of_invalid
  rw [List.take_append_drop, List.length_take_of_le (le_length_of_lead_invalid h), h]

/-- Of one byte string, only one part in front is the maximal invalid one. -/
theorem Broken.unique {other more : List UInt8} (h : Broken part rest) (h' : Broken other more)
    (hSame : part ++ rest = other ++ more) : part = other ∧ rest = more := by
  have hLe {part rest other more : List UInt8} (h : Broken part rest) (h' : Broken other more)
      (hSame : part ++ rest = other ++ more) : part.length ≤ other.length := by
    rcases h.begun with hStub | hOne
    · exact h'.longest part rest hSame hStub
    · rw [hOne]
      exact List.length_pos_iff.mpr h'.nonempty
  exact List.append_inj hSame (Nat.le_antisymm (hLe h h' hSame) (hLe h' h hSame.symm))

/-- Whatever begins a byte string is a whole sequence, a stub or a maximal invalid part. -/
theorem broken_cons_iff :
    Broken (b :: part) rest ↔ lead b (part ++ rest) = .invalid part.length := by
  refine ⟨fun hBroken => ?_, .of_invalid⟩
  cases hLead : lead b (part ++ rest) with
  | whole n =>
    obtain ⟨c, hCharacter⟩ := exists_encodeChar_of_whole hLead
    have hFront : encodeChar c ++ (part ++ rest).drop n = b :: part ++ rest := by
      rw [hCharacter, List.cons_append, List.take_append_drop, List.cons_append]
    exact absurd hFront (hBroken.no_character _ _)
  | unfinished => exact absurd (stub_cons_iff.mpr hLead) hBroken.no_stub
  | invalid k =>
    have hTaken := Broken.of_lead hLead
    obtain ⟨hPart, -⟩ := hBroken.unique hTaken (by simp)
    obtain ⟨-, hPart⟩ := List.cons.inj hPart
    rw [hPart, List.length_take_of_le (le_length_of_lead_invalid hLead)]

theorem Broken.lead (h : Broken part rest) : ∃ first behind, part = first :: behind ∧
    Utf8.lead first (behind ++ rest) = .invalid behind.length := by
  obtain ⟨first, behind, rfl⟩ := List.exists_cons_of_ne_nil h.nonempty
  exact ⟨first, behind, rfl, broken_cons_iff.mp h⟩

/-- A broken part stays broken when more bytes come. -/
theorem Broken.append (h : Broken part rest) (more : List UInt8) : Broken part (rest ++ more) := by
  obtain ⟨first, part, rfl⟩ := List.exists_cons_of_ne_nil h.nonempty
  rw [broken_cons_iff, lead_eq_invalid_iff] at h ⊢
  rcases h with hNone | ⟨n, hFirst, hShort, hThere, hTail⟩
  · exact .inl hNone
  · refine .inr ⟨n, hFirst, hShort, ?_, ?_⟩
    · rw [← List.append_assoc, List.length_append]
      omega
    · rw [← List.append_assoc, continuations_append_of_lt more (hTail ▸ hThere), hTail]

/-- A stub has at most three bytes. -/
theorem Stub.length_le (h : Stub part) : part.length ≤ 3 := by
  obtain ⟨first, part, rfl⟩ := List.exists_cons_of_ne_nil h.nonempty
  obtain ⟨n, hFirst, hShort, -⟩ := lead_eq_unfinished_iff.mp (stub_cons_iff.mp h)
  have hMost : n ≤ 3 := by
    rw [following?_eq] at hFirst
    split_ifs at hFirst <;> simp_all <;> omega
  rw [List.length_cons]
  omega

end EditorBridge.Utf8
