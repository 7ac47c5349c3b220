import EditorBridge.Proofs.Frame.Grammar
/-!
How much the cuts of a text matter. A text as a whole says in which order its messages and its first
fault stand. A reader that takes it in pieces gives back these messages and this fault for all cuts,
in this order, but for one case: the messages that are completed by the very piece in which the
fault is met are overtaken by the fault. They stay queued and come behind it.
-/
namespace EditorBridge.Frame

/-- What a reader finds in a text: the messages in front, what is left behind them, and the fault
with which the rest begins. -/
structure Content where
  messages : List String
  left : List Char
  fault : Option Fault
deriving DecidableEq, Repr

/-- What a reader finds in a text as a whole. -/
def content (text : List Char) : Content :=
  let (messages, left, fault) := frames (text.length + 1) text
  ⟨messages.map String.ofList, left, fault⟩

/-- How receptions end that have given all messages before the end or the fault. -/
def Content.ending (c : Content) : Reader.Receipt :=
  match c.fault with
  | some fault => .fault fault
  | none => .exhausted

/-- The messages in their order, and then the fault or the end. -/
def Content.inOrder (c : Content) : List Reader.Receipt := c.messages.map .message ++ [c.ending]

namespace Reader

/-- What at most `n` receptions one after the other give, of which the last may bring no message,
and the reader behind them. -/
def receptions : Nat → Reader → List (List Char) → List Receipt × Reader
  | 0, r, _ => ([], r)
  | n + 1, r, pieces =>
    match r.receive pieces with
    | (.message m, r, rest) =>
      let (later, r) := receptions n r rest
      (.message m :: later, r)
    | (receipt, r, _) => ([receipt], r)

end Reader

variable {text : List Char} {fault : Fault}

theorem front_length {message rest : List Char} (h : front text = .message message rest) :
    rest.length < text.length := (fronts_iff.mpr h).length_lt

theorem frames_fuel {fuel fuel' : Nat} (h : text.length < fuel) (h' : text.length < fuel') :
    frames fuel text = frames fuel' text := by
  induction fuel generalizing text fuel' with
  | zero => omega
  | succ fuel ih =>
    obtain ⟨fuel', rfl⟩ := Nat.exists_eq_succ_of_ne_zero (Nat.ne_of_gt (Nat.zero_lt_of_lt h'))
    rw [frames, frames]
    split
    · rfl
    · rfl
    · rename_i message rest hFront
      have hShorter := front_length hFront
      have hSame : frames fuel rest = frames fuel' rest := ih (by omega) (by omega)
      rw [hSame]

theorem content_of_incomplete (h : front text = .incomplete) : content text = ⟨[], text, none⟩ := by
  simp [content, frames, h]

theorem content_of_fault (h : front text = .fault fault) :
    content text = ⟨[], text, some fault⟩ := by
  simp [content, frames, h]

theorem content_of_message {message rest : List Char} (h : front text = .message message rest) :
    content text = { content rest with
      messages := String.ofList message :: (content rest).messages } := by
  have hFuel := frames_fuel (front_length h) (Nat.lt_succ_self rest.length)
  simp only [content, frames, h, hFuel, List.map_cons]

/-- The content of a text is what it says. -/
theorem says_content (text : List Char) :
    Says text (content text).messages (content text).fault := by
  induction hLength : text.length using Nat.strongRecOn generalizing text with
  | ind n ih =>
    cases hFront : front text with
    | incomplete =>
      rw [content_of_incomplete hFront]
      exact .ends (fronts_iff.mpr hFront)
    | fault fault =>
      rw [content_of_fault hFront]
      exact .faulty (fronts_iff.mpr hFront)
    | message message rest =>
      rw [content_of_message hFront]
      exact .message (fronts_iff.mpr hFront) (ih _ (hLength ▸ front_length hFront) _ rfl)

/-- A text says one thing only. -/
theorem says_iff {messages : List String} {fault : Option Fault} :
    Says text messages fault ↔
      (content text).messages = messages ∧ (content text).fault = fault := by
  refine ⟨fun hSays => ?_, ?_⟩
  · induction hSays with
    | ends hFront => simp [content_of_incomplete hFront.front_eq]
    | faulty hFront => simp [content_of_fault hFront.front_eq]
    | message hFront _ ih => simp [content_of_message hFront.front_eq, ih]
  · rintro ⟨rfl, rfl⟩
    exact says_content text

/-- A text says first what its beginning says. With a fault the beginning has said all; otherwise
what it leaves goes on with what follows. -/
theorem content_append (text more : List Char) :
    content (text ++ more) =
      match (content text).fault with
      | some fault => ⟨(content text).messages, (content text).left ++ more, some fault⟩
      | none =>
        let rest := content ((content text).left ++ more)
        { rest with messages := (content text).messages ++ rest.messages } := by
  induction hLength : text.length using Nat.strongRecOn generalizing text with
  | ind n ih =>
    cases hFront : front text with
    | incomplete => simp [content_of_incomplete hFront]
    | fault fault =>
      have hLonger := ((fronts_iff.mpr hFront).append_fault more).front_eq
      simp [content_of_fault hFront, content_of_fault hLonger]
    | message message rest =>
      have hShorter := front_length hFront
      have hLonger := ((fronts_iff.mpr hFront).append_message more).front_eq
      rw [content_of_message hFront, content_of_message hLonger, ih _ (by omega) rest rfl]
      cases (content rest).fault with
      | none => simp
      | some fault => simp

/-- What is left without a fault is no whole frame. -/
theorem front_left (h : (content text).fault = none) : front (content text).left = .incomplete := by
  induction hLength : text.length using Nat.strongRecOn generalizing text with
  | ind n ih =>
    cases hFront : front text with
    | incomplete => simpa [content_of_incomplete hFront] using hFront
    | fault fault => simp [content_of_fault hFront] at h
    | message message rest =>
      rw [content_of_message hFront] at h ⊢
      exact ih _ (hLength ▸ front_length hFront) h rfl

namespace Reader

variable {r : Reader} {buffer : List Char} {pieces : List (List Char)}

theorem feed_eq (r : Reader) (piece : List Char) :
    r.feed piece =
      (⟨(content (r.buffer ++ piece)).left, r.queue ++ (content (r.buffer ++ piece)).messages⟩,
        (content (r.buffer ++ piece)).fault) := rfl

/-- The messages that are queued come first. -/
theorem receptions_queue (n : Nat) (queue : List String) :
    receptions n ⟨buffer, queue⟩ pieces =
      if n ≤ queue.length then ((queue.take n).map Receipt.message, ⟨buffer, queue.drop n⟩)
      else
        let (later, r) := receptions (n - queue.length) ⟨buffer, []⟩ pieces
        (queue.map Receipt.message ++ later, r) := by
  induction queue generalizing n with
  | nil =>
    cases n with
    | zero => rfl
    | succ n => simp
  | cons m queue ih =>
    cases n with
    | zero => rfl
    | succ n =>
      have hReceive : (⟨buffer, m :: queue⟩ : Reader).receive pieces =
          (.message m, ⟨buffer, queue⟩, pieces) := by
        unfold receive
        rfl
      rw [receptions, hReceive]
      simp only [ih n, List.length_cons, Nat.add_le_add_iff_right, Nat.add_sub_add_right]
      split <;> simp

/-- The first pieces complete the messages `first` and hold no fault. With the next one the text has
the fault, and the messages `overtaken` stand between the others and the fault. -/
def MeetsFault (buffer : List Char) (pieces : List (List Char)) (fault : Fault)
    (first overtaken : List String) : Prop :=
  ∃ before piece after, pieces = before ++ piece :: after ∧
    (content (buffer ++ before.flatten)).fault = none ∧
    (content (buffer ++ before.flatten)).messages = first ∧
    (content (buffer ++ (before.flatten ++ piece))).fault = some fault ∧
    (content (buffer ++ (before.flatten ++ piece))).messages = first ++ overtaken

/-- How far receptions follow what the text says: they give the messages `first` and then the fault
or the end, and the messages `overtaken` are left in the queue. -/
structure Delivers (buffer : List Char) (pieces : List (List Char))
    (first overtaken : List String) : Prop where
  messages : (content (buffer ++ pieces.flatten)).messages = first ++ overtaken
  receipts : ∀ n, (receptions n ⟨buffer, []⟩ pieces).1 =
    (first.map Receipt.message ++ [(content (buffer ++ pieces.flatten)).ending]).take n
  queue : ∀ n, first.length < n → (receptions n ⟨buffer, []⟩ pieces).2.queue = overtaken
  overtaken_nil : (content (buffer ++ pieces.flatten)).fault = none → overtaken = []
  meets : ∀ fault, (content (buffer ++ pieces.flatten)).fault = some fault →
    MeetsFault buffer pieces fault first overtaken

/-- With no piece left, the text ends. -/
theorem delivers_nil (h : front buffer = .incomplete) : Delivers buffer [] [] [] := by
  have hContent := content_of_incomplete h
  have hReceive : (⟨buffer, []⟩ : Reader).receive [] = (.exhausted, ⟨buffer, []⟩, []) := by
    unfold receive
    rfl
  constructor
  · simp [hContent]
  · intro n
    cases n <;> simp [receptions, hReceive, hContent, Content.ending]
  · intro n hn
    obtain ⟨n, rfl⟩ := Nat.exists_eq_succ_of_ne_zero (Nat.ne_of_gt hn)
    simp [receptions, hReceive]
  · simp
  · simp [hContent]

/-- A piece with which the text has a fault: the messages that it completes are overtaken. -/
theorem delivers_of_fault (h : front buffer = .incomplete) {piece : List Char} {fault : Fault}
    (hFault : (content (buffer ++ piece)).fault = some fault) :
    Delivers buffer (piece :: pieces) [] (content (buffer ++ piece)).messages := by
  have hWhole : content (buffer ++ (piece ++ pieces.flatten)) =
      ⟨(content (buffer ++ piece)).messages, (content (buffer ++ piece)).left ++ pieces.flatten,
        some fault⟩ := by
    rw [← List.append_assoc, content_append, hFault]
  have hReceive : (⟨buffer, []⟩ : Reader).receive (piece :: pieces) =
      (.fault fault, ⟨(content (buffer ++ piece)).left, (content (buffer ++ piece)).messages⟩,
        pieces) := by
    unfold receive
    simp [next?, feed_eq, hFault]
  constructor
  · simp [hWhole]
  · intro n
    cases n <;> simp [receptions, hReceive, hWhole, Content.ending]
  · intro n hn
    obtain ⟨n, rfl⟩ := Nat.exists_eq_succ_of_ne_zero (Nat.ne_of_gt hn)
    simp [receptions, hReceive]
  · simp [hWhole]
  · intro fault' hFault'
    rw [List.flatten_cons, hWhole] at hFault'
    obtain rfl := Option.some.inj hFault'
    exact ⟨[], piece, pieces, rfl, by simp [content_of_incomplete h],
      by simp [content_of_incomplete h], by simpa using hFault, by simp⟩

/-- A piece without a fault says its messages, and what it leaves goes on with what follows. -/
theorem content_of_no_fault {piece : List Char} (hNone : (content (buffer ++ piece)).fault = none)
    (rest : List Char) : content (buffer ++ (piece ++ rest)) =
      { content ((content (buffer ++ piece)).left ++ rest) with
        messages := (content (buffer ++ piece)).messages ++
          (content ((content (buffer ++ piece)).left ++ rest)).messages } := by
  rw [← List.append_assoc, content_append, hNone]

/-- Such a piece is looked at before anything is received. -/
theorem receptions_of_no_fault {piece : List Char}
    (hNone : (content (buffer ++ piece)).fault = none) (n : Nat) :
    receptions (n + 1) ⟨buffer, []⟩ (piece :: pieces) =
      receptions (n + 1) ⟨(content (buffer ++ piece)).left, (content (buffer ++ piece)).messages⟩
        pieces := by
  have hReceive : (⟨buffer, []⟩ : Reader).receive (piece :: pieces) =
      Reader.receive ⟨(content (buffer ++ piece)).left, (content (buffer ++ piece)).messages⟩
        pieces := by
    rw [receive]
    simp [next?, feed_eq, hNone]
  rw [receptions, hReceive, receptions]

/-- A piece with which the text has no fault: the messages that it completes come next. -/
theorem Delivers.cons {piece : List Char} {first overtaken : List String}
    (hNone : (content (buffer ++ piece)).fault = none)
    (h : Delivers (content (buffer ++ piece)).left pieces first overtaken) :
    Delivers buffer (piece :: pieces) ((content (buffer ++ piece)).messages ++ first)
      overtaken := by
  have hWhole := content_of_no_fault hNone
  have hEnding : (content (buffer ++ (piece :: pieces).flatten)).ending =
      (content ((content (buffer ++ piece)).left ++ pieces.flatten)).ending := by
    rw [List.flatten_cons, hWhole]
    rfl
  constructor
  · rw [List.flatten_cons, hWhole]
    simp [h.messages]
  · intro n
    cases n with
    | zero => rfl
    | succ n =>
      rw [receptions_of_no_fault hNone, receptions_queue, hEnding, List.map_append, List.append_assoc,
        List.take_append]
      split
      · rename_i hFew
        simp [List.map_take, Nat.sub_eq_zero_of_le hFew]
      · rename_i hMany
        have hAll : ((content (buffer ++ piece)).messages.map Receipt.message).take (n + 1) =
            (content (buffer ++ piece)).messages.map Receipt.message :=
          List.take_of_length_le (by simp; omega)
        simp only [h.receipts, hAll, List.length_map]
  · intro n hn
    rw [List.length_append] at hn
    obtain ⟨n, rfl⟩ := Nat.exists_eq_succ_of_ne_zero (Nat.ne_of_gt (Nat.zero_lt_of_lt hn))
    rw [receptions_of_no_fault hNone, receptions_queue, if_neg (by omega)]
    exact h.queue _ (by omega)
  · intro hFault
    rw [List.flatten_cons, hWhole] at hFault
    exact h.overtaken_nil hFault
  · intro fault hFault
    rw [List.flatten_cons, hWhole] at hFault
    obtain ⟨before, last, after, rfl, hBefore, hFirst, hMet, hMessages⟩ := h.meets fault hFault
    refine ⟨piece :: before, last, after, rfl, ?_, ?_, ?_, ?_⟩
    · simpa [hWhole] using hBefore
    · simp [hWhole, hFirst]
    · simpa [hWhole] using hMet
    · simp [hWhole, hMessages]

theorem exists_delivers (h : front buffer = .incomplete) (pieces : List (List Char)) :
    ∃ first overtaken, Delivers buffer pieces first overtaken := by
  induction pieces generalizing buffer with
  | nil => exact ⟨[], [], delivers_nil h⟩
  | cons piece pieces ih =>
    match hFault : (content (buffer ++ piece)).fault with
    | some fault => exact ⟨[], _, delivers_of_fault h hFault⟩
    | none =>
      obtain ⟨first, overtaken, hRest⟩ := ih (front_left hFault)
      exact ⟨_, overtaken, hRest.cons hFault⟩

/-- When receptions have come to the end of a text without a fault, what it leaves is kept and no
message is queued. -/
theorem receptions_end (h : front buffer = .incomplete) {n : Nat}
    (hNone : (content (buffer ++ pieces.flatten)).fault = none)
    (hEnd : (content (buffer ++ pieces.flatten)).messages.length < n) :
    (receptions n ⟨buffer, []⟩ pieces).2 = ⟨(content (buffer ++ pieces.flatten)).left, []⟩ := by
  obtain ⟨n, rfl⟩ := Nat.exists_eq_succ_of_ne_zero (Nat.ne_of_gt (Nat.zero_lt_of_lt hEnd))
  induction pieces generalizing buffer n with
  | nil =>
    have hReceive : (⟨buffer, []⟩ : Reader).receive [] = (.exhausted, ⟨buffer, []⟩, []) := by
      unfold receive
      rfl
    rw [receptions, hReceive]
    simp [content_of_incomplete h]
  | cons piece pieces ih =>
    rw [List.flatten_cons] at hNone hEnd ⊢
    cases hPiece : (content (buffer ++ piece)).fault with
    | some fault =>
      rw [← List.append_assoc, content_append, hPiece] at hNone
      cases hNone
    | none =>
      rw [content_of_no_fault hPiece] at hNone hEnd ⊢
      simp only [List.length_append] at hNone hEnd ⊢
      obtain ⟨k, hk⟩ := Nat.exists_eq_add_of_lt hEnd
      rw [receptions_of_no_fault hPiece, receptions_queue, if_neg (by omega)]
      have hRest : n + 1 - (content (buffer ++ piece)).messages.length =
          n - (content (buffer ++ piece)).messages.length + 1 := by omega
      rw [hRest]
      apply ih (front_left hPiece) hNone
      omega

end Reader

/-- Every text says certain messages and then its first fault, or none. For every cut of it into
pieces, the receptions up to the first that brings no message give these messages in their order and
then this fault, or the end, exactly if no message is overtaken. In every case they give the
messages that are not overtaken and then the fault, or the end; the overtaken ones stay queued, and
both together are the messages of the text. Overtaken are those that are completed by the piece with
which the fault is met; without a fault there are none. -/
theorem receptions_in_order_iff (pieces : List (List Char)) :
    (∀ messages fault, Says pieces.flatten messages fault ↔
      (content pieces.flatten).messages = messages ∧ (content pieces.flatten).fault = fault) ∧
    ∃ first overtaken,
      (content pieces.flatten).messages = first ++ overtaken ∧
      (∀ n, (Reader.receptions n .empty pieces).1 =
        (first.map Reader.Receipt.message ++ [(content pieces.flatten).ending]).take n) ∧
      (∀ n, first.length < n → (Reader.receptions n .empty pieces).2.queue = overtaken) ∧
      ((content pieces.flatten).fault = none → overtaken = []) ∧
      (∀ fault, (content pieces.flatten).fault = some fault →
        Reader.MeetsFault [] pieces fault first overtaken) ∧
      ((∀ n, (Reader.receptions n .empty pieces).1 = (content pieces.flatten).inOrder.take n) ↔
        overtaken = []) := by
  refine ⟨fun messages fault => says_iff, ?_⟩
  have hEmpty : front [] = .incomplete := rfl
  obtain ⟨first, overtaken, hMessages, hReceipts, hQueue, hNone, hMeets⟩ :=
    Reader.exists_delivers hEmpty pieces
  rw [List.nil_append] at hMessages
  refine ⟨first, overtaken, hMessages, hReceipts, hQueue, hNone, hMeets, fun hOrder => ?_, ?_⟩
  · -- In the place behind `first` stands the ending, which is no message.
    have hBoth := congrArg (·[first.length]?) ((hReceipts _).symm.trans (hOrder (first.length + 1)))
    rw [List.nil_append, Content.inOrder, hMessages] at hBoth
    cases overtaken with
    | nil => rfl
    | cons m overtaken =>
      simp [Content.ending] at hBoth
      split at hBoth <;> cases hBoth
  · rintro rfl n
    rw [List.append_nil] at hMessages
    rw [Content.inOrder, hMessages]
    exact hReceipts n

/-- A whole frame and a header without a length, in one piece. -/
def overtakingPieces : List (List Char) :=
  ["Content-Length: 2\r\n\r\nokX-Other: 1\r\n\r\n".toList]

/-- The same text, cut behind the frame. -/
def orderlyPieces : List (List Char) :=
  ["Content-Length: 2\r\n\r\nok".toList, "X-Other: 1\r\n\r\n".toList]

/-- Two cuts of one text can give different receptions, and a whole message can come behind the
fault of a later header. -/
theorem receptions_depend_on_cuts :
    ¬ ∀ pieces pieces' : List (List Char), pieces.flatten = pieces'.flatten →
      ∀ n, (Reader.receptions n .empty pieces).1 = (Reader.receptions n .empty pieces').1 := by
  intro hAlways
  have hText : overtakingPieces.flatten = orderlyPieces.flatten := by decide
  have hOvertaking : (Reader.receptions 2 .empty overtakingPieces).1 = [.fault .missingLength] := by
    decide +kernel
  have hOrderly : (Reader.receptions 2 .empty orderlyPieces).1 =
      [.message "ok", .fault .missingLength] := by
    decide +kernel
  have hSame := hAlways _ _ hText 2
  rw [hOvertaking, hOrderly] at hSame
  cases hSame

end EditorBridge.Frame
