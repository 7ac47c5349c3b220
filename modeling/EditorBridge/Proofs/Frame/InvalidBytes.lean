import EditorBridge.Proofs.Frame.Outlook
/-!
Frames whose bodies are any bytes. The header counts the bytes of the body as they are on the wire,
but a reader cuts the text off behind the decoder, where each broken part has become one U+FFFD of
three bytes. The two counts agree for a body only if each of its broken parts has three bytes; and
of the last body, a sequence that is left unfinished never becomes text. In exactly these cases each
frame is delivered as its lossy text.
-/
namespace EditorBridge.Frame

open Utf8 (Piece Reads Stub Broken lossy lossyString textOf encodeChar replacement)

variable {body bytes more part stub stub' : List UInt8} {pieces pieces' : List Piece}

/-- A broken part becomes three bytes and has no more, so the text of a body that is broken nowhere
into less than three bytes keeps its size. -/
def KeepsSize (body : List UInt8) : Prop :=
  ∀ pieces stub, Reads body pieces stub →
    (∀ part, .broken part ∈ pieces → part.length = 3) ∧ (stub ≠ [] → stub.length = 3)

/-- Nothing at the end is left unfinished. -/
def EndsWhole (body : List UInt8) : Prop := ∀ pieces stub, Reads body pieces stub → stub = []

theorem broken_length_le (h : Broken part more) : part.length ≤ 3 := by
  rcases h.begun with hStub | hOne
  · exact hStub.length_le
  · omega

/-- A text has at least as many bytes as the pieces that it is read from, and no more only if each
broken part has three. -/
theorem byteSize_textOf (h : Reads body pieces stub) :
    body.length ≤ byteSize (textOf pieces) + stub.length ∧
      (body.length = byteSize (textOf pieces) + stub.length ↔
        ∀ part, .broken part ∈ pieces → part.length = 3) := by
  induction h with
  | done => simp [textOf]
  | unfinished => simp [textOf]
  | @character rest stub pieces c hRest ih =>
    obtain ⟨hLe, hEq⟩ := ih
    have hText : byteSize (textOf (.character c :: pieces)) =
        c.utf8Size + byteSize (textOf pieces) := rfl
    have hBytes : (encodeChar c).length = c.utf8Size := String.length_utf8EncodeChar c
    simp only [hText, List.length_append, hBytes, List.mem_cons, reduceCtorEq, false_or]
    rw [← hEq]
    omega
  | @broken part rest stub pieces hPart hRest ih =>
    obtain ⟨hLe, hEq⟩ := ih
    have hText : byteSize (textOf (.broken part :: pieces)) =
        3 + byteSize (textOf pieces) := rfl
    have hMost := broken_length_le hPart
    have hAll : (∀ p, Piece.broken p ∈ Piece.broken part :: pieces → p.length = 3) ↔
        part.length = 3 ∧ ∀ p, Piece.broken p ∈ pieces → p.length = 3 := by
      simp
    rw [hAll, hText, List.length_append, ← hEq]
    omega

theorem byteSize_lossy (h : Reads body pieces stub) :
    byteSize (lossy body) = byteSize (textOf pieces) + if stub = [] then 0 else 3 := by
  rw [h.lossy_eq, byteSize_append]
  split <;> rfl

/-- The size is kept exactly if it is kept by each broken part. -/
theorem keepsSize_iff : KeepsSize body ↔ byteSize (lossy body) = body.length := by
  obtain ⟨pieces, stub, hReads⟩ := Utf8.exists_reads body
  obtain ⟨hLe, hEq⟩ := byteSize_textOf hReads
  have hMost := hReads.stub_length_le
  have hOne : KeepsSize body ↔
      (∀ part, .broken part ∈ pieces → part.length = 3) ∧ (stub ≠ [] → stub.length = 3) := by
    refine ⟨fun h => h pieces stub hReads, fun h pieces' stub' hReads' => ?_⟩
    obtain ⟨rfl, rfl⟩ := hReads.unique hReads'
    exact h
  rw [hOne, byteSize_lossy hReads, ← hEq]
  by_cases hNone : stub = []
  · simp only [hNone, List.length_nil, if_true] at hLe ⊢
    simp only [ne_eq, not_true_eq_false, false_implies, and_true]
    omega
  · simp only [hNone, ne_eq, not_false_eq_true, true_implies, if_false]
    omega

/-- A frame as it is on the wire. Its header is any that ends with the first blank line and gives
the number of the bytes behind it. -/
structure WireFrame where
  header : List Char
  body : List UInt8
  block : Block (header ++ blankLine) header []
  counts : contentLength header = .ok body.length

namespace WireFrame

def onWire (f : WireFrame) : List UInt8 := Utf8.encode (f.header ++ blankLine) ++ f.body

/-- The header names the length only. -/
def plain (body : List UInt8) (h : body.length ≤ maxSize) : WireFrame where
  header := lengthHeader body.length
  body := body
  block := by
    refine splitHeader_eq_some_iff.mp ?_
    rw [splitHeader_append (not_mem_lengthHeader _)]
    simp [splitHeader, blankLine]
  counts := contentLength_lengthHeader h

end WireFrame

def wire (frames : List WireFrame) : List UInt8 := frames.flatMap WireFrame.onWire

/-- The text of frames: bodies before others are followed by a header, so all that is unfinished in
them is broken off; only the last one can end with a sequence that never becomes text. -/
def wireText : List WireFrame → List Char
  | [] => []
  | [f] => f.header ++ blankLine ++ (Utf8.Decoder.empty.feed f.body).1
  | f :: g :: rest => f.header ++ blankLine ++ (lossy f.body ++ wireText (g :: rest))

/-- The frames are read as they were written. -/
structure InStep (frames : List WireFrame) : Prop where
  keeps : ∀ f ∈ frames, KeepsSize f.body
  ends : ∀ f ∈ frames.getLast?, EndsWhole f.body

theorem reads_encode (s : List Char) (h : Reads bytes pieces stub) :
    Reads (Utf8.encode s ++ bytes) (s.map Piece.character ++ pieces) stub := by
  induction s with
  | nil => exact h
  | cons c s ih =>
    have hCons : Utf8.encode (c :: s) = encodeChar c ++ Utf8.encode s := rfl
    rw [hCons, List.append_assoc]
    exact .character c ih

theorem textOf_characters (s : List Char) (pieces : List Piece) :
    textOf (s.map Piece.character ++ pieces) = s ++ textOf pieces := by
  simp [textOf, Function.comp_def, Piece.char]

theorem exists_reads_wire (frames : List WireFrame) :
    ∃ pieces stub, Reads (wire frames) pieces stub ∧ textOf pieces = wireText frames := by
  induction frames with
  | nil => exact ⟨[], [], .done, rfl⟩
  | cons f rest ih =>
    have hWire :
        wire (f :: rest) = Utf8.encode (f.header ++ blankLine) ++ (f.body ++ wire rest) := by
      simp [wire, WireFrame.onWire]
    obtain ⟨pieces, stub, hBody⟩ := Utf8.exists_reads f.body
    rw [hWire]
    match rest with
    | [] =>
      refine ⟨_, stub, reads_encode _ (by simpa [wire] using hBody), ?_⟩
      rw [textOf_characters, wireText, hBody.feed_eq]
    | g :: rest =>
      obtain ⟨pieces', stub', hRest, hText⟩ := ih
      -- The next header begins with a character.
      obtain ⟨c, s, hFirst⟩ : ∃ c s, g.header ++ blankLine = c :: s :=
        List.exists_cons_of_ne_nil (by simp [blankLine])
      have hNext : wire (g :: rest) = encodeChar c ++ (Utf8.encode s ++ (g.body ++ wire rest)) := by
        simp [wire, WireFrame.onWire, hFirst, Utf8.encode]
      rw [hNext] at hRest ⊢
      obtain ⟨all, hAll, hBoth⟩ := hBody.append_character hRest
      refine ⟨_, stub', reads_encode _ hAll, ?_⟩
      rw [textOf_characters, hBoth, hText, wireText]

theorem feed_wire (frames : List WireFrame) :
    (Utf8.Decoder.empty.feed (wire frames)).1 = wireText frames := by
  obtain ⟨pieces, stub, hReads, hText⟩ := exists_reads_wire frames
  rw [hReads.feed_eq, hText]

theorem WireFrame.block_append (f : WireFrame) (text : List Char) :
    Block (f.header ++ blankLine ++ text) f.header text := by
  simpa using f.block.append text

/-- A text that has the counted size is taken as the message. -/
theorem content_of_keepsSize {f : WireFrame} (h : KeepsSize f.body) (text : List Char) :
    content (f.header ++ blankLine ++ (lossy f.body ++ text)) =
      { content text with messages := lossyString f.body :: (content text).messages } := by
  have hCounts : contentLength f.header = .ok (byteSize (lossy f.body)) := by
    rw [f.counts, keepsSize_iff.mp h]
  exact content_of_message (Fronts.message (f.block_append _) hCounts).front_eq

/-- The first message behind a header has the counted size. -/
theorem first_message {f : WireFrame} {text : List Char} {m : String} {messages : List String}
    (h : m :: messages <+: (content (f.header ++ blankLine ++ text)).messages) :
    ∃ rest, text = m.toList ++ rest ∧ byteSize m.toList = f.body.length ∧
      messages <+: (content rest).messages := by
  cases hFront : front (f.header ++ blankLine ++ text) with
  | incomplete =>
    rw [content_of_incomplete hFront] at h
    simp at h
  | fault fault =>
    rw [content_of_fault hFront] at h
    simp at h
  | message message rest =>
    rw [content_of_message hFront, List.cons_prefix_cons] at h
    obtain ⟨rfl, hRest⟩ := h
    cases fronts_iff.mpr hFront with
    | message hBlock hLength =>
      obtain ⟨rfl, rfl⟩ := hBlock.unique (f.block_append text)
      have hSize := hLength.symm.trans f.counts
      refine ⟨rest, by simp, ?_, hRest⟩
      simpa using hSize

theorem inStep_singleton {f : WireFrame} :
    InStep [f] ↔ KeepsSize f.body ∧ EndsWhole f.body := by
  constructor
  · intro h
    exact ⟨h.keeps f (by simp), h.ends f (by simp)⟩
  · rintro ⟨hKeeps, hEnds⟩
    exact ⟨by simpa using hKeeps, by simpa using hEnds⟩

theorem inStep_cons_cons {f g : WireFrame} {rest : List WireFrame} :
    InStep (f :: g :: rest) ↔ KeepsSize f.body ∧ InStep (g :: rest) := by
  constructor
  · intro h
    obtain ⟨hFirst, hRest⟩ := List.forall_mem_cons.mp h.keeps
    exact ⟨hFirst, hRest, by simpa using h.ends⟩
  · rintro ⟨hFirst, hRest, hEnds⟩
    exact ⟨List.forall_mem_cons.mpr ⟨hFirst, hRest⟩, by simpa using hEnds⟩

theorem endsWhole_iff : EndsWhole body ↔ (Utf8.piecesOf body).2 = [] := by
  refine ⟨fun h => h _ _ (Utf8.reads_piecesOf body), fun h pieces stub hReads => ?_⟩
  rw [Utf8.reads_iff.mp hReads] at h
  exact h

theorem EndsWhole.feed_eq (h : EndsWhole body) : (Utf8.Decoder.empty.feed body).1 = lossy body := by
  obtain ⟨pieces, stub, hReads⟩ := Utf8.exists_reads body
  rw [hReads.feed_eq, hReads.lossy_eq, if_pos (h _ _ hReads), List.append_nil]

/-- In step, the text is that of the bodies, and nothing is left of it. -/
theorem content_of_inStep {frames : List WireFrame} (h : InStep frames) :
    content (wireText frames) = ⟨frames.map fun f => lossyString f.body, [], none⟩ := by
  induction frames with
  | nil => exact content_of_incomplete rfl
  | cons f rest ih =>
    match rest with
    | [] =>
      obtain ⟨hKeeps, hEnds⟩ := inStep_singleton.mp h
      have hContent := content_of_keepsSize hKeeps []
      have hNothing : content [] = ⟨[], [], none⟩ := content_of_incomplete rfl
      rw [List.append_nil, hNothing] at hContent
      rw [wireText, hEnds.feed_eq]
      exact hContent
    | g :: rest =>
      obtain ⟨hKeeps, hRest⟩ := inStep_cons_cons.mp h
      rw [wireText, content_of_keepsSize hKeeps, ih hRest]
      rfl

/-- If all bodies are found as their lossy texts, the frames are in step. -/
theorem inStep_of_isPrefix {frames : List WireFrame}
    (h : (frames.map fun f => lossyString f.body) <+: (content (wireText frames)).messages) :
    InStep frames := by
  induction frames with
  | nil => exact ⟨by simp, by simp⟩
  | cons f rest ih =>
    have hKeeps {messages : List String} {text : List Char}
        (h : lossyString f.body :: messages <+:
          (content (f.header ++ blankLine ++ text)).messages) :
        KeepsSize f.body ∧ ∃ rest, text = lossy f.body ++ rest ∧
          messages <+: (content rest).messages := by
      obtain ⟨rest, hText, hSize, hRest⟩ := first_message h
      rw [lossyString, String.toList_ofList] at hText hSize
      exact ⟨keepsSize_iff.mpr hSize, rest, hText, hRest⟩
    match rest with
    | [] =>
      rw [wireText] at h
      obtain ⟨hFirst, left, hText, -⟩ := hKeeps h
      refine inStep_singleton.mpr ⟨hFirst, fun pieces stub hReads => ?_⟩
      -- With a stub, the lossy text is longer than the text that was decoded.
      rw [hReads.feed_eq, hReads.lossy_eq] at hText
      have hLength := congrArg List.length hText
      simp only [List.length_append] at hLength
      refine Decidable.byContradiction fun hStub => ?_
      rw [if_neg hStub, List.length_singleton] at hLength
      omega
    | g :: rest =>
      rw [wireText, List.map_cons] at h
      obtain ⟨hFirst, left, hText, hRest⟩ := hKeeps h
      rw [List.append_cancel_left_eq] at hText
      exact inStep_cons_cons.mpr ⟨hFirst, ih (hText ▸ hRest)⟩

/-- Frames whose bodies are any bytes are delivered as the lossy texts of these bodies exactly if
they are in step: each broken part of each body has three bytes, and the last body does not end
inside a sequence. This does not depend on how the bytes are cut and when the owner looks. -/
theorem delivers_lossy_iff {frames : List WireFrame} {happenings : List Happening}
    (hBytes : bytesRead happenings = wire frames) :
    Delivered happenings (frames.map fun f => lossyString f.body) ↔ InStep frames := by
  constructor
  · intro hDelivered
    have hPrefix := hDelivered.isPrefix
    rw [hBytes, feed_wire] at hPrefix
    exact inStep_of_isPrefix hPrefix
  · intro hStep
    have hContent : content (Utf8.Decoder.empty.feed (bytesRead happenings)).1 =
        ⟨frames.map fun f => lossyString f.body, [], none⟩ := by
      rw [hBytes, feed_wire, content_of_inStep hStep]
    have hAll : Delivered happenings
        (content (Utf8.Decoder.empty.feed (bytesRead happenings)).1).messages :=
      delivered_content (by rw [hContent])
    rw [hContent] at hAll
    exact hAll

/-- The first body ends a sequence of four bytes behind its third one. -/
def cutOffFrames : List WireFrame :=
  [.plain [0xf0, 0x9f, 0x98, 0x21] (by decide), .plain [0x6f, 0x6b] (by decide)]

def cutOffReads : List Happening :=
  [.read ((wire cutOffFrames).take 23), .look, .read ((wire cutOffFrames).drop 23)]

theorem delivers_lossy_cutOff : Delivered cutOffReads ["\uFFFD!", "ok"] := by
  have hBytes : bytesRead cutOffReads = wire cutOffFrames := by decide +kernel
  have hTexts : cutOffFrames.map (fun f => lossyString f.body) = ["\uFFFD!", "ok"] := by
    decide +kernel
  rw [← hTexts]
  refine (delivers_lossy_iff hBytes).mpr ⟨fun f hf => keepsSize_iff.mpr ?_, fun f hf => ?_⟩
  · revert f
    decide +kernel
  · rw [endsWhole_iff]
    revert f
    decide +kernel

/-- The first body is a byte that begins no sequence. -/
def strayByteFrames : List WireFrame :=
  [.plain [0xff] (by decide), .plain [0x6f, 0x6b] (by decide)]

/-- A single invalid byte in a body puts the reader out of step. -/
theorem stray_byte_breaks_stream :
    ¬ ∀ (frames : List WireFrame) (happenings : List Happening),
      bytesRead happenings = wire frames →
        Delivered happenings (frames.map fun f => lossyString f.body) := by
  intro hAlways
  have hBytes : bytesRead [.read (wire strayByteFrames)] = wire strayByteFrames := List.append_nil _
  have hPrefix := (hAlways strayByteFrames _ hBytes).isPrefix
  rw [hBytes, feed_wire] at hPrefix
  have hKeeps :=
    (inStep_of_isPrefix hPrefix).keeps (.plain [0xff] (by decide)) (by simp [strayByteFrames])
  have hSize : byteSize (lossy [0xff]) ≠ 1 := by decide +kernel
  exact hSize (keepsSize_iff.mp hKeeps)

end EditorBridge.Frame
