import EditorBridge.Text.Utf8
import Mathlib.Tactic.SplitIfs
/-!
The decoder gives back what was encoded. A character is one well-formed sequence, a well-formed
sequence is taken as one character, and a text is one sequence after the other. Because the decoder
takes one byte at a time, what it makes of a byte string does not depend on how the string was cut.
-/
namespace EditorBridge.Utf8

/-- Comparing bytes is comparing numbers; here for the first byte of a sequence. -/
theorem following?_eq (b : UInt8) : following? b =
    if b.toNat < 0x80 then some 0
    else if 0xc2 ≤ b.toNat ∧ b.toNat ≤ 0xdf then some 1
    else if 0xe0 ≤ b.toNat ∧ b.toNat ≤ 0xef then some 2
    else if 0xf0 ≤ b.toNat ∧ b.toNat ≤ 0xf4 then some 3
    else none := by
  simp [following?, UInt8.lt_iff_toNat_lt, UInt8.le_iff_toNat_le]

theorem secondLow_toNat (b : UInt8) : (secondLow b).toNat =
    if b.toNat = 0xe0 then 0xa0 else if b.toNat = 0xf0 then 0x90 else 0x80 := by
  simp only [secondLow, ← UInt8.toNat_inj]
  split_ifs <;> simp_all

theorem secondHigh_toNat (b : UInt8) : (secondHigh b).toNat =
    if b.toNat = 0xed then 0x9f else if b.toNat = 0xf4 then 0x8f else 0xbf := by
  simp only [secondHigh, ← UInt8.toNat_inj]
  split_ifs <;> simp_all

theorem continuations_cons (low high b : UInt8) (n : Nat) (rest : List UInt8) :
    continuations low high (n + 1) (b :: rest) =
      if low.toNat ≤ b.toNat ∧ b.toNat ≤ high.toNat then continuations 0x80 0xbf n rest + 1
      else 0 := by
  simp [continuations, UInt8.le_iff_toNat_le]

/-- All continuations of a sequence are there only if the first byte is in its range and all the
others are there. -/
theorem continuations_all {low high b : UInt8} {n : Nat} {rest : List UInt8}
    (h : continuations low high (n + 1) (b :: rest) = n + 1) :
    (low ≤ b ∧ b ≤ high) ∧ continuations 0x80 0xbf n rest = n := by
  by_cases hRange : low ≤ b ∧ b ≤ high
  · exact ⟨hRange, by simpa [continuations, hRange] using h⟩
  · simp [continuations, hRange] at h

/-- A first byte that asks for more begins a sequence. -/
theorem push_lead {first : UInt8} {n : Nat} (h : following? first = some (n + 1)) :
    Decoder.push .empty first = ([], ⟨some ⟨[first], n + 1, secondLow first, secondHigh first,
      leadBits first (n + 1)⟩⟩) := by
  simp [Decoder.push, Decoder.empty, Decoder.start, h]

/-- A byte in its range goes on with a sequence that lacks at least one more. -/
theorem push_within {seen : List UInt8} {n bits : Nat} {low high b : UInt8}
    (h : low ≤ b ∧ b ≤ high) :
    Decoder.push ⟨some ⟨seen, n + 2, low, high, bits⟩⟩ b =
      ([], ⟨some ⟨b :: seen, n + 1, 0x80, 0xbf, bits * 64 + b.toNat % 64⟩⟩) := by
  simp [Decoder.push, h]

/-- Once a sequence has begun and all the bytes that it lacks follow in their ranges, they are taken
and make one character. -/
theorem pushAll_continuations (done : List Char) (seen : List UInt8) (missing : Nat)
    (low high : UInt8) (bits : Nat) (bytes : List UInt8)
    (h : continuations low high (missing + 1) bytes = missing + 1) :
    Decoder.pushAll done ⟨some ⟨seen, missing + 1, low, high, bits⟩⟩ bytes =
      Decoder.pushAll (Char.ofNat (codePoint bits (bytes.take (missing + 1))) :: done) .empty
        (bytes.drop (missing + 1)) := by
  induction missing generalizing seen low high bits bytes with
  | zero =>
    match bytes with
    | [] => simp [continuations] at h
    | b :: rest =>
      obtain ⟨hRange, -⟩ := continuations_all h
      simp [Decoder.pushAll, Decoder.push, hRange, codePoint]
  | succ missing ih =>
    match bytes with
    | [] => simp [continuations] at h
    | b :: rest =>
      obtain ⟨hRange, hRest⟩ := continuations_all h
      simp only [Decoder.pushAll, push_within hRange, List.reverseAux_nil, ih _ _ _ _ _ hRest]
      simp [codePoint]

/-- Bytes that make one well-formed sequence for a code point. -/
structure Sequence (first : UInt8) (tail : List UInt8) (value : Nat) : Prop where
  asks : following? first = some tail.length
  follows : ∀ rest, continuations (secondLow first) (secondHigh first) tail.length (tail ++ rest) =
    tail.length
  denotes : codePoint (leadBits first tail.length) tail = value

/-- A well-formed sequence that begins between two characters is taken as one character. -/
theorem Sequence.pushAll {first : UInt8} {tail : List UInt8} {value : Nat}
    (h : Sequence first tail value) (done : List Char) (rest : List UInt8) :
    Decoder.pushAll done .empty (first :: tail ++ rest) =
      Decoder.pushAll (Char.ofNat value :: done) .empty rest := by
  have hAsks := h.asks
  have hFollows := h.follows rest
  rw [← h.denotes]
  cases hLength : tail.length with
  | zero =>
    obtain rfl : tail = [] := List.eq_nil_of_length_eq_zero hLength
    simp [Decoder.pushAll, Decoder.push, Decoder.empty, Decoder.start, hAsks, leadBits, codePoint]
  | succ n =>
    rw [hLength] at hAsks hFollows
    simp only [List.cons_append, Decoder.pushAll, push_lead hAsks, List.reverseAux_nil]
    rw [pushAll_continuations done [first] n _ _ _ _ hFollows]
    simp [← hLength]

theorem toNat_ofNat_of_lt {n : Nat} (h : n < 256) : (UInt8.ofNat n).toNat = n := by
  simp [Nat.mod_eq_of_lt h]

/-- The byte for the last six bits of a number may follow in any sequence. -/
theorem toNat_follower (n : Nat) : (UInt8.ofNat (n % 64 + 0x80)).toNat = n % 64 + 0x80 :=
  toNat_ofNat_of_lt (by omega)

theorem continuations_follower (n m : Nat) (rest : List UInt8) :
    continuations 0x80 0xbf (n + 1) (UInt8.ofNat (m % 64 + 0x80) :: rest) =
      continuations 0x80 0xbf n rest + 1 := by
  rw [continuations_cons, toNat_follower, if_pos]
  simp only [UInt8.reduceToNat]
  omega

theorem sequence_one {v : Nat} (h : v ≤ 0x7f) : Sequence (UInt8.ofNat v) [] v := by
  have hFirst := toNat_ofNat_of_lt (n := v) (by omega)
  constructor
  · rw [following?_eq, hFirst, if_pos (by omega)]
    rfl
  · intro rest
    simp [continuations]
  · simp only [List.length_nil, leadBits, hFirst, codePoint, List.foldl_nil]

theorem sequence_two {v : Nat} (hLow : 0x7f < v) (hHigh : v ≤ 0x7ff) :
    Sequence (UInt8.ofNat (v / 64 % 32 + 0xc0)) [UInt8.ofNat (v % 64 + 0x80)] v := by
  have hFirst := toNat_ofNat_of_lt (n := v / 64 % 32 + 0xc0) (by omega)
  constructor
  · rw [following?_eq, hFirst, if_neg (by omega), if_pos (by omega)]
    rfl
  · intro rest
    simp only [List.length_cons, List.length_nil, List.cons_append, List.nil_append,
      continuations_cons, secondLow_toNat, secondHigh_toNat, hFirst, toNat_follower]
    rw [if_pos (by split_ifs <;> omega)]
    simp [continuations]
  · simp only [List.length_cons, List.length_nil, leadBits, hFirst, codePoint, List.foldl_cons,
      List.foldl_nil, toNat_follower]
    omega

/-- Surrogates are no characters, so a first byte of 0xed never has a greater second byte. -/
theorem sequence_three {v : Nat} (hLow : 0x7ff < v) (hHigh : v ≤ 0xffff)
    (hValid : v < 0xd800 ∨ 0xdfff < v) :
    Sequence (UInt8.ofNat (v / 4096 % 16 + 0xe0))
      [UInt8.ofNat (v / 64 % 64 + 0x80), UInt8.ofNat (v % 64 + 0x80)] v := by
  have hFirst := toNat_ofNat_of_lt (n := v / 4096 % 16 + 0xe0) (by omega)
  constructor
  · rw [following?_eq, hFirst, if_neg (by omega), if_neg (by omega), if_pos (by omega)]
    rfl
  · intro rest
    simp only [List.length_cons, List.length_nil, List.cons_append, List.nil_append]
    rw [continuations_cons, secondLow_toNat, secondHigh_toNat, hFirst, toNat_follower,
      if_pos (by split_ifs <;> omega), continuations_follower]
    simp [continuations]
  · simp only [List.length_cons, List.length_nil, leadBits, hFirst, codePoint, List.foldl_cons,
      List.foldl_nil, toNat_follower]
    omega

theorem sequence_four {v : Nat} (hLow : 0xffff < v) (hHigh : v < 0x110000) :
    Sequence (UInt8.ofNat (v / 262144 % 8 + 0xf0))
      [UInt8.ofNat (v / 4096 % 64 + 0x80), UInt8.ofNat (v / 64 % 64 + 0x80),
        UInt8.ofNat (v % 64 + 0x80)] v := by
  have hFirst := toNat_ofNat_of_lt (n := v / 262144 % 8 + 0xf0) (by omega)
  constructor
  · rw [following?_eq, hFirst, if_neg (by omega), if_neg (by omega), if_neg (by omega),
      if_pos (by omega)]
    rfl
  · intro rest
    simp only [List.length_cons, List.length_nil, List.cons_append, List.nil_append]
    rw [continuations_cons, secondLow_toNat, secondHigh_toNat, hFirst, toNat_follower,
      if_pos (by split_ifs <;> omega), continuations_follower, continuations_follower]
    simp [continuations]
  · simp only [List.length_cons, List.length_nil, leadBits, hFirst, codePoint, List.foldl_cons,
      List.foldl_nil, toNat_follower]
    omega

/-- The bytes of a character, by the size of its code point. -/
theorem encodeChar_eq (c : Char) : encodeChar c =
    if c.toNat ≤ 0x7f then [UInt8.ofNat c.toNat]
    else if c.toNat ≤ 0x7ff then
      [UInt8.ofNat (c.toNat / 64 % 32 + 0xc0), UInt8.ofNat (c.toNat % 64 + 0x80)]
    else if c.toNat ≤ 0xffff then
      [UInt8.ofNat (c.toNat / 4096 % 16 + 0xe0), UInt8.ofNat (c.toNat / 64 % 64 + 0x80),
        UInt8.ofNat (c.toNat % 64 + 0x80)]
    else
      [UInt8.ofNat (c.toNat / 262144 % 8 + 0xf0), UInt8.ofNat (c.toNat / 4096 % 64 + 0x80),
        UInt8.ofNat (c.toNat / 64 % 64 + 0x80), UInt8.ofNat (c.toNat % 64 + 0x80)] := rfl

/-- The bytes of a character are one well-formed sequence for its code point. -/
theorem encodeChar_sequence (c : Char) :
    ∃ first tail, encodeChar c = first :: tail ∧ Sequence first tail c.toNat := by
  have hValid : c.toNat < 0xd800 ∨ 0xdfff < c.toNat ∧ c.toNat < 0x110000 := c.valid
  have hBytes := encodeChar_eq c
  generalize c.toNat = v at hValid hBytes
  by_cases hOne : v ≤ 0x7f
  · exact ⟨_, _, hBytes.trans (if_pos hOne), sequence_one hOne⟩
  by_cases hTwo : v ≤ 0x7ff
  · exact ⟨_, _, hBytes.trans ((if_neg hOne).trans (if_pos hTwo)), sequence_two (by omega) hTwo⟩
  by_cases hThree : v ≤ 0xffff
  · exact ⟨_, _, hBytes.trans ((if_neg hOne).trans ((if_neg hTwo).trans (if_pos hThree))),
      sequence_three (by omega) hThree (by omega)⟩
  · exact ⟨_, _, hBytes.trans ((if_neg hOne).trans ((if_neg hTwo).trans (if_neg hThree))),
      sequence_four (by omega) (by omega)⟩

theorem pushAll_encodeChar (done : List Char) (c : Char) (rest : List UInt8) :
    Decoder.pushAll done .empty (encodeChar c ++ rest) =
      Decoder.pushAll (c :: done) .empty rest := by
  obtain ⟨first, tail, hBytes, hSequence⟩ := encodeChar_sequence c
  rw [hBytes, hSequence.pushAll, Char.ofNat_toNat]

theorem pushAll_encode (done s : List Char) :
    Decoder.pushAll done .empty (encode s) = (s.reverse ++ done, .empty) := by
  induction s generalizing done with
  | nil => rfl
  | cons c s ih =>
    have hCons : encode (c :: s) = encodeChar c ++ encode s := rfl
    rw [hCons, pushAll_encodeChar, ih]
    simp

theorem pushAll_append (done : List Char) (d : Decoder) (first second : List UInt8) :
    Decoder.pushAll done d (first ++ second) =
      Decoder.pushAll (Decoder.pushAll done d first).1 (Decoder.pushAll done d first).2 second := by
  induction first generalizing done d with
  | nil => rfl
  | cons b rest ih => exact ih ..

/-- What was decoded before only stands in front. -/
theorem pushAll_done (done : List Char) (d : Decoder) (bytes : List UInt8) :
    Decoder.pushAll done d bytes =
      ((Decoder.pushAll [] d bytes).1 ++ done, (Decoder.pushAll [] d bytes).2) := by
  induction bytes generalizing done d with
  | nil => rfl
  | cons b rest ih =>
    have hStep (done : List Char) : Decoder.pushAll done d (b :: rest) =
        Decoder.pushAll ((d.push b).1.reverse ++ done) (d.push b).2 rest := by
      simp [Decoder.pushAll, List.reverseAux_eq]
    rw [hStep, hStep, ih, ih (_ ++ [])]
    simp

/-- The text of two chunks one after the other is the text of both in one. -/
theorem feed_append (d : Decoder) (first second : List UInt8) :
    d.feed (first ++ second) =
      ((d.feed first).1 ++ ((d.feed first).2.feed second).1, ((d.feed first).2.feed second).2) := by
  simp only [Decoder.feed, pushAll_append [] d first second]
  rw [pushAll_done (Decoder.pushAll [] d first).1]
  simp

/-- The bytes of a text give the text back, and nothing is kept back. -/
theorem feed_encode (s : List Char) : Decoder.empty.feed (encode s) = (s, .empty) := by
  simp [Decoder.feed, pushAll_encode]

end EditorBridge.Utf8
