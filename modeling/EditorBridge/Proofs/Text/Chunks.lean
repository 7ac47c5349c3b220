import EditorBridge.Proofs.Text.Lossy
import EditorBridge.Stream.Transport
/-!
Chunks are read as the whole. An accumulator starts over at the front of its buffer with every
extraction, a decoder goes on byte by byte from the state that it kept; both give the text of the
pieces of all bytes so far and keep the stub behind them. So it does not matter where the bytes were
cut, and what is missing from the lossy text of the whole is the one U+FFFD of a stub at its end.
-/
namespace EditorBridge.Utf8

variable {bytes rest part stub buffer : List UInt8} {pieces : List Piece} {done : List Char}
  {chunks : List (List UInt8)}

theorem validate_nil : validate [] = ⟨0, none⟩ := by rw [validate]

theorem validate_encodeChar_append (c : Char) (rest : List UInt8) :
    validate (encodeChar c ++ rest) =
      { validate rest with valid := (validate rest).valid + (encodeChar c).length } := by
  obtain ⟨first, tail, hBytes, hLead, -⟩ := lead_encodeChar c rest
  rw [hBytes, List.cons_append, validate, hLead]
  simp only [List.drop_left, List.length_cons]

theorem Broken.validate_append (h : Broken part rest) :
    validate (part ++ rest) = ⟨0, some part.length⟩ := by
  obtain ⟨first, behind, rfl, hLead⟩ := h.lead
  rw [List.cons_append, validate, hLead]
  rfl

theorem Stub.validate_eq (h : Stub part) : validate part = ⟨0, none⟩ := by
  obtain ⟨first, behind, rfl, hLead⟩ := h.lead
  rw [validate, hLead]

namespace Accumulator

theorem release_of_none (h : (validate buffer).invalid = none) :
    release done buffer = (done ++ lossy (buffer.take (validate buffer).valid),
      buffer.drop (validate buffer).valid) := by
  rw [release]
  split
  · rfl
  · rename_i hSome
    rw [h] at hSome
    cases hSome

theorem release_of_some {len : Nat} (h : (validate buffer).invalid = some len) :
    release done buffer =
      release (done ++ lossy (buffer.take (validate buffer).valid) ++ [replacement])
        ((buffer.drop (validate buffer).valid).drop len) := by
  rw [release]
  split
  · rename_i hNone
    rw [h] at hNone
    cases hNone
  · rename_i hSome
    obtain rfl := Option.some.inj (h.symm.trans hSome)
    rfl

theorem release_stub (h : stub = [] ∨ Stub stub) : release done stub = (done, stub) := by
  have hVerdict : validate stub = ⟨0, none⟩ := by
    rcases h with rfl | h
    · exact validate_nil
    · exact h.validate_eq
  rw [release_of_none (by rw [hVerdict]), hVerdict]
  simp [lossy]

/-- The validator takes a character with all that is valid behind it, so both sides take the same
steps. -/
theorem release_encodeChar_append (c : Char) (rest : List UInt8) :
    release done (encodeChar c ++ rest) = release (done ++ [c]) rest := by
  have hVerdict := validate_encodeChar_append c rest
  have hTake : (encodeChar c ++ rest).take (validate (encodeChar c ++ rest)).valid =
      encodeChar c ++ rest.take (validate rest).valid := by
    rw [hVerdict, Nat.add_comm, List.take_length_add_append]
  have hDrop : (encodeChar c ++ rest).drop (validate (encodeChar c ++ rest)).valid =
      rest.drop (validate rest).valid := by
    rw [hVerdict, Nat.add_comm, List.drop_length_add_append]
  have hInvalid : (validate (encodeChar c ++ rest)).invalid = (validate rest).invalid := by
    rw [hVerdict]
  have hText (s : List Char) : done ++ c :: s = done ++ [c] ++ s := by simp
  cases hNext : (validate rest).invalid with
  | none =>
    rw [release_of_none (hInvalid.trans hNext), release_of_none hNext, hTake, hDrop,
      lossy_encodeChar_append, hText]
  | some len =>
    rw [release_of_some (hInvalid.trans hNext), release_of_some hNext, hTake, hDrop,
      lossy_encodeChar_append, hText]

theorem release_broken_append (h : Broken part rest) :
    release done (part ++ rest) = release (done ++ [replacement]) rest := by
  have hVerdict := h.validate_append
  have hInvalid : (validate (part ++ rest)).invalid = some part.length := by rw [hVerdict]
  rw [release_of_some hInvalid, hVerdict]
  simp [lossy]

/-- All pieces are released, and the stub is left. -/
theorem release_eq (h : Reads buffer pieces stub) :
    release done buffer = (done ++ textOf pieces, stub) := by
  induction h generalizing done with
  | done => rw [release_stub (.inl rfl), textOf, List.map_nil, List.append_nil]
  | unfinished h => rw [release_stub (.inr h), textOf, List.map_nil, List.append_nil]
  | character c _ ih =>
    rw [release_encodeChar_append, ih, List.append_assoc]
    rfl
  | broken hPart _ ih =>
    rw [release_broken_append hPart, ih, List.append_assoc]
    rfl

theorem extract?_eq {a : Accumulator} (h : Reads a.buffer pieces stub) :
    a.extract? = (if textOf pieces = [] then none else some (textOf pieces), ⟨stub⟩) := by
  rw [extract?, release_eq h, List.nil_append]

/-- An extraction takes everything there is to take. -/
theorem extract?_extract? (a : Accumulator) : a.extract?.2.extract? = (none, a.extract?.2) := by
  obtain ⟨pieces, stub, hReads⟩ := exists_reads a.buffer
  rw [extract?_eq hReads, extract?_eq (Reads.of_stub hReads.stub_or_nil)]
  rfl

end Accumulator

section

variable {a b c : Accumulator} {text : List Char} {texts : List (List Char)}

theorem extracts_of_none (h : a.extract? = (none, b)) :
    Extracts a texts c ↔ texts = [] ∧ c = b := by
  constructor
  · intro hTexts
    cases hTexts with
    | done hDone =>
      rw [h] at hDone
      exact ⟨rfl, (Prod.mk.inj hDone).2.symm⟩
    | text hText _ =>
      rw [h] at hText
      cases hText
  · rintro ⟨rfl, rfl⟩
    exact .done h

theorem extracts_of_some (h : a.extract? = (some text, b)) :
    Extracts a texts c ↔ ∃ later, texts = text :: later ∧ Extracts b later c := by
  constructor
  · intro hTexts
    cases hTexts with
    | done hDone =>
      rw [h] at hDone
      cases hDone
    | text hText hRest =>
      rw [h] at hText
      cases hText
      exact ⟨_, rfl, hRest⟩
  · rintro ⟨later, rfl, hRest⟩
    exact .text h hRest

/-- Extracting until there is no text ends with one text at most: that of the pieces. -/
theorem extracts_iff (h : Reads a.buffer pieces stub) :
    Extracts a texts b ↔ texts = [textOf pieces].filter (· ≠ []) ∧ b = ⟨stub⟩ := by
  have hFirst := Accumulator.extract?_eq h
  have hSecond := Accumulator.extract?_extract? a
  rw [hFirst] at hSecond
  by_cases hEmpty : textOf pieces = []
  · rw [if_pos hEmpty] at hFirst
    rw [extracts_of_none hFirst]
    simp [hEmpty]
  · rw [if_neg hEmpty] at hFirst
    rw [if_neg hEmpty] at hSecond
    rw [extracts_of_some hFirst]
    have hOne : [textOf pieces].filter (· ≠ []) = [textOf pieces] := by simp [hEmpty]
    rw [hOne]
    constructor
    · rintro ⟨later, rfl, hRest⟩
      obtain ⟨rfl, rfl⟩ := (extracts_of_none hSecond).mp hRest
      exact ⟨rfl, rfl⟩
    · rintro ⟨rfl, rfl⟩
      exact ⟨[], rfl, (extracts_of_none hSecond).mpr ⟨rfl, rfl⟩⟩

end

/-- Bytes that continue the sequence that has begun, but do not end it, are kept. -/
theorem pushAll_unfinished (done : List Char) (seen : List UInt8) (missing : Nat)
    (low high : UInt8) (bits : Nat) (bytes : List UInt8) (hShort : bytes.length < missing + 1)
    (h : continuations low high (missing + 1) bytes = bytes.length) :
    ∃ p, Decoder.pushAll done ⟨some ⟨seen, missing + 1, low, high, bits⟩⟩ bytes =
        (done, ⟨some p⟩) ∧ p.seen = bytes.reverse ++ seen := by
  induction bytes generalizing seen missing low high bits with
  | nil => exact ⟨_, rfl, rfl⟩
  | cons b bytes ih =>
    rw [List.length_cons] at hShort
    obtain ⟨missing, rfl⟩ : ∃ m, missing = m + 1 := ⟨missing - 1, by omega⟩
    by_cases hRange : low ≤ b ∧ b ≤ high
    · rw [continuations, if_pos hRange, List.length_cons, Nat.add_right_cancel_iff] at h
      obtain ⟨p, hAll, hSeen⟩ := ih (b :: seen) missing _ _ (bits * 64 + b.toNat % 64)
        (Nat.lt_of_succ_lt_succ hShort) h
      refine ⟨p, ?_, by simpa using hSeen⟩
      simp only [Decoder.pushAll, push_within hRange, List.reverseAux_nil, hAll]
    · simp [continuations, hRange] at h

/-- A byte that breaks off the sequence that has begun makes it one U+FFFD, and is taken anew. -/
theorem pushAll_broken (done : List Char) (seen : List UInt8) (missing : Nat)
    (low high : UInt8) (bits : Nat) (bytes : List UInt8)
    (hShort : continuations low high (missing + 1) bytes < missing + 1)
    (hThere : continuations low high (missing + 1) bytes < bytes.length) :
    Decoder.pushAll done ⟨some ⟨seen, missing + 1, low, high, bits⟩⟩ bytes =
      Decoder.pushAll (replacement :: done) .empty
        (bytes.drop (continuations low high (missing + 1) bytes)) := by
  induction bytes generalizing seen missing low high bits with
  | nil => simp at hThere
  | cons b bytes ih =>
    by_cases hRange : low ≤ b ∧ b ≤ high
    · rw [continuations, if_pos hRange] at hShort hThere ⊢
      obtain ⟨missing, rfl⟩ : ∃ m, missing = m + 1 := ⟨missing - 1, by omega⟩
      simp only [Decoder.pushAll, push_within hRange, List.reverseAux_nil, List.drop_succ_cons]
      exact ih _ _ _ _ _ (Nat.lt_of_succ_lt_succ hShort) (Nat.lt_of_succ_lt_succ hThere)
    · have hPush : Decoder.push ⟨some ⟨seen, missing + 1, low, high, bits⟩⟩ b =
          (replacement :: (Decoder.start b).1, (Decoder.start b).2) := by
        simp [Decoder.push, hRange]
      rw [continuations, if_neg hRange, List.drop_zero, Decoder.pushAll, hPush]
      rfl

/-- A decoder between two characters keeps a stub and gives no text. -/
theorem Stub.feed_eq (h : Stub stub) :
    ∃ d, Decoder.empty.feed stub = ([], d) ∧ d.keptBack = stub := by
  obtain ⟨first, behind, rfl, hLead⟩ := h.lead
  obtain ⟨n, hFirst, hShort, hTail⟩ := lead_eq_unfinished_iff.mp hLead
  obtain ⟨n, rfl⟩ := Nat.exists_eq_succ_of_ne_zero (Nat.ne_of_gt (Nat.zero_lt_of_lt hShort))
  obtain ⟨p, hAll, hSeen⟩ := pushAll_unfinished [] [first] n _ _ (leadBits first (n + 1)) behind
    hShort hTail
  refine ⟨⟨some p⟩, ?_, by simp [Decoder.keptBack, hSeen]⟩
  simp only [Decoder.feed, Decoder.pushAll, push_lead hFirst, List.reverseAux_nil, hAll,
    List.reverse_nil]

theorem Broken.pushAll_append (h : Broken part rest) (done : List Char) :
    Decoder.pushAll done .empty (part ++ rest) =
      Decoder.pushAll (replacement :: done) .empty rest := by
  obtain ⟨first, behind, rfl, hLead⟩ := h.lead
  rcases lead_eq_invalid_iff.mp hLead with ⟨hFirst, hNone⟩ | ⟨n, hFirst, hShort, hThere, hTail⟩
  · obtain rfl := List.eq_nil_of_length_eq_zero hNone
    simp [Decoder.pushAll, Decoder.push, Decoder.empty, Decoder.start, hFirst]
  · obtain ⟨n, rfl⟩ := Nat.exists_eq_succ_of_ne_zero (Nat.ne_of_gt (Nat.zero_lt_of_lt hShort))
    have hBroken := pushAll_broken done [first] n _ _ (leadBits first (n + 1)) (behind ++ rest)
      (hTail ▸ hShort) (hTail ▸ hThere)
    rw [hTail, List.drop_left] at hBroken
    simp only [List.cons_append, Decoder.pushAll, push_lead hFirst, List.reverseAux_nil, hBroken]

theorem feed_of_pushAll {c : Char}
    (h : Decoder.pushAll [] .empty bytes = Decoder.pushAll [c] .empty rest) :
    Decoder.empty.feed bytes = (c :: (Decoder.empty.feed rest).1, (Decoder.empty.feed rest).2) := by
  rw [Decoder.feed, h, pushAll_done [c]]
  simp [Decoder.feed]

/-- A decoder gives the text of the pieces, and then is where the stub alone leads. -/
theorem Reads.feed_eq (h : Reads bytes pieces stub) :
    Decoder.empty.feed bytes = (textOf pieces, (Decoder.empty.feed stub).2) := by
  induction h with
  | done => rfl
  | unfinished h =>
    obtain ⟨d, hFeed, -⟩ := h.feed_eq
    rw [hFeed]
    rfl
  | character c _ ih =>
    rw [feed_of_pushAll (pushAll_encodeChar [] c _), ih]
    rfl
  | broken hPart _ ih =>
    rw [feed_of_pushAll (hPart.pushAll_append []), ih]
    rfl

theorem keptBack_feed (h : stub = [] ∨ Stub stub) :
    (Decoder.empty.feed stub).2.keptBack = stub := by
  rcases h with rfl | h
  · rfl
  · obtain ⟨d, hFeed, hKept⟩ := h.feed_eq
    rw [hFeed]
    exact hKept

theorem feedAll_flatten (d : Decoder) (chunks : List (List UInt8)) :
    d.feed chunks.flatten = ((d.feedAll chunks).1.flatten, (d.feedAll chunks).2) := by
  induction chunks generalizing d with
  | nil => rfl
  | cons chunk chunks ih =>
    rw [List.flatten_cons, feed_append, ih]
    rfl

/-- Where a stub leads, a decoder goes on as if the stub stood in front. -/
theorem feed_after_stub {chunk stub' : List UInt8} (h : stub = [] ∨ Stub stub)
    (hReads : Reads (stub ++ chunk) pieces stub') :
    (Decoder.empty.feed stub).2.feed chunk = (textOf pieces, (Decoder.empty.feed stub').2) := by
  have hBoth := hReads.feed_eq
  rw [feed_append, (Reads.of_stub h).feed_eq] at hBoth
  exact hBoth

theorem gathers_cons_iff {a c : Accumulator} {chunk : List UInt8} {texts : List (List Char)} :
    Gathers a (chunk :: chunks) texts c ↔ ∃ first later b, texts = first ++ later ∧
      Extracts (a.add chunk) first b ∧ Gathers b chunks later c := by
  constructor
  · intro h
    cases h with
    | chunk hTexts hRest => exact ⟨_, _, _, rfl, hTexts, hRest⟩
  · rintro ⟨first, later, b, rfl, hTexts, hRest⟩
    exact .chunk hTexts hRest

/-- Chunk after chunk, the texts of an accumulator are those of a decoder that are not empty, and
both keep the same bytes. -/
theorem gathers_iff {a b : Accumulator} {texts : List (List Char)}
    (h : a.buffer = [] ∨ Stub a.buffer) :
    Gathers a chunks texts b ↔
      texts = ((Decoder.empty.feed a.buffer).2.feedAll chunks).1.filter (· ≠ []) ∧
        b = ⟨((Decoder.empty.feed a.buffer).2.feedAll chunks).2.keptBack⟩ := by
  induction chunks generalizing a texts with
  | nil =>
    have hKept : a = ⟨(Decoder.empty.feed a.buffer).2.keptBack⟩ := by rw [keptBack_feed h]
    constructor
    · intro hNothing
      cases hNothing
      exact ⟨rfl, hKept⟩
    · rintro ⟨rfl, rfl⟩
      rw [Decoder.feedAll, ← hKept]
      exact .done a
  | cons chunk chunks ih =>
    obtain ⟨pieces, stub, hReads⟩ := exists_reads (a.add chunk).buffer
    have hFeed := feed_after_stub h hReads
    have hNext (texts : List (List Char)) : Gathers ⟨stub⟩ chunks texts b ↔ _ :=
      ih hReads.stub_or_nil
    rw [Decoder.feedAll, hFeed, gathers_cons_iff]
    have hFilter : (textOf pieces :: ((Decoder.empty.feed stub).2.feedAll chunks).1).filter
        (· ≠ []) = [textOf pieces].filter (· ≠ []) ++
          ((Decoder.empty.feed stub).2.feedAll chunks).1.filter (· ≠ []) := by
      rw [← List.filter_append, List.singleton_append]
    constructor
    · rintro ⟨first, later, c, rfl, hFirst, hLater⟩
      obtain ⟨rfl, rfl⟩ := (extracts_iff hReads).mp hFirst
      obtain ⟨rfl, rfl⟩ := (hNext later).mp hLater
      exact ⟨hFilter.symm, rfl⟩
    · rintro ⟨rfl, rfl⟩
      exact ⟨_, _, ⟨stub⟩, hFilter, (extracts_iff hReads).mpr ⟨rfl, rfl⟩,
        (hNext _).mpr ⟨rfl, rfl⟩⟩

/-- A fresh decoder gives chunk by chunk the text of the pieces of the whole, and keeps the stub. -/
theorem Reads.feedAll_eq (h : Reads chunks.flatten pieces stub) :
    ((Decoder.empty.feedAll chunks).1.filter (· ≠ [])).flatten = textOf pieces ∧
      (Decoder.empty.feedAll chunks).2.keptBack = stub := by
  have hWhole := h.feed_eq
  rw [feedAll_flatten] at hWhole
  obtain ⟨hText, hState⟩ := Prod.mk.inj hWhole
  rw [List.flatten_filter_ne_nil, hText, hState, keptBack_feed h.stub_or_nil]
  exact ⟨rfl, rfl⟩

theorem Gathers.reads {a : Accumulator} {texts : List (List Char)}
    (hGathers : Gathers .empty chunks texts a) (h : Reads chunks.flatten pieces stub) :
    texts.flatten = textOf pieces ∧ a.buffer = stub := by
  obtain ⟨rfl, rfl⟩ := (gathers_iff (.inl rfl)).mp hGathers
  exact h.feedAll_eq

theorem deliver_eq {t : Stream.Transport} (hReading : t.reading = true) (hOpen : t.closed = false)
    (chunk : List UInt8) :
    t.deliver chunk = { t with
      decoder := (t.decoder.feed chunk).2
      pieces := t.pieces ++ [(t.decoder.feed chunk).1].filter (· ≠ []) } := by
  by_cases hEmpty : (t.decoder.feed chunk).1 = []
  · simp [Stream.Transport.deliver, hReading, hEmpty]
  · simp [Stream.Transport.deliver, hReading, hEmpty, hOpen]

/-- An open connection passes on the texts of its decoder that are not empty. -/
theorem foldl_deliver {t : Stream.Transport} (hReading : t.reading = true)
    (hOpen : t.closed = false) (chunks : List (List UInt8)) :
    chunks.foldl Stream.Transport.deliver t =
      { t with
        decoder := (t.decoder.feedAll chunks).2
        pieces := t.pieces ++ (t.decoder.feedAll chunks).1.filter (· ≠ []) } := by
  induction chunks generalizing t with
  | nil => simp [Decoder.feedAll]
  | cons chunk chunks ih =>
    have hStep := deliver_eq hReading hOpen chunk
    have hRest := ih (t := t.deliver chunk) (by rw [hStep, hReading]) (by rw [hStep, hOpen])
    rw [List.foldl_cons, hRest, hStep, Decoder.feedAll]
    simp only [List.append_assoc, ← List.filter_append, List.singleton_append]

/-- Reading chunk by chunk is reading the whole. Every byte string falls into pieces and at most one
stub behind them, and its lossy text is the text of the pieces, with one U+FFFD for the stub. For
every way to cut it into chunks, extracting behind each chunk until there is no text ends; the texts
are together the text of the pieces, and the stub is what is kept back, so neither depends on the
cuts. A second extraction gives nothing, whatever the buffer holds. The texts are also those that a
connection passes on which reads these chunks, and it keeps the same bytes. -/
theorem chunks_read_as_whole (chunks : List (List UInt8)) :
    ∃ pieces stub texts a,
      Reads chunks.flatten pieces stub ∧
      (∀ pieces' stub', Reads chunks.flatten pieces' stub' → pieces' = pieces ∧ stub' = stub) ∧
      lossy chunks.flatten = textOf pieces ++ (if stub = [] then [] else [replacement]) ∧
      (stub = [] ∨ Stub stub) ∧ stub.length ≤ 3 ∧ stub <:+ chunks.flatten ∧
      Gathers .empty chunks texts a ∧ texts.flatten = textOf pieces ∧ a.buffer = stub ∧
      (∀ cuts texts' a', cuts.flatten = chunks.flatten → Gathers .empty cuts texts' a' →
        texts'.flatten = textOf pieces ∧ a'.buffer = stub) ∧
      (∀ b : Accumulator, b.extract?.2.extract? = (none, b.extract?.2)) ∧
      (chunks.foldl Stream.Transport.deliver .fresh).pieces = texts ∧
      (chunks.foldl Stream.Transport.deliver .fresh).decoder.keptBack = stub := by
  obtain ⟨pieces, stub, hReads⟩ := exists_reads chunks.flatten
  obtain ⟨hText, hKept⟩ := hReads.feedAll_eq
  have hGathers : Gathers .empty chunks _ _ := (gathers_iff (.inl rfl)).mpr ⟨rfl, rfl⟩
  have hPassed := foldl_deliver (t := .fresh) rfl rfl chunks
  refine ⟨pieces, stub, _, _, hReads, fun _ _ => hReads.unique, hReads.lossy_eq,
    hReads.stub_or_nil, hReads.stub_length_le, ⟨_, hReads.bytes_eq.symm⟩, hGathers, hText, hKept,
    ?_, Accumulator.extract?_extract?, ?_, ?_⟩
  · intro cuts texts' a' hSame hCuts
    exact hCuts.reads (hSame ▸ hReads)
  · rw [hPassed]
    rfl
  · rw [hPassed]
    exact hKept

example : (Accumulator.add ⟨[0xc3]⟩ [0xa9, 0x63]).extract? = (some ['é', 'c'], ⟨[]⟩) := by
  decide +kernel

end EditorBridge.Utf8
