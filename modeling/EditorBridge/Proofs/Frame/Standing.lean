import EditorBridge.Proofs.Frame.Cuts
/-!
A fault of a frame stays. The text that begins with the faulty frame is kept, and whatever arrives
behind it, the same header block is read and found faulty in the same way; nothing behind its blank
line is ever read as a header. All that is still to come are the messages that were complete before
the fault.
-/
namespace EditorBridge.Frame

/-- What is wrong with a header block in front of a text. -/
inductive Faulty (header rest : List Char) : Fault → Prop where
  | malformed {fault : Fault} (hLength : contentLength header = .error fault) :
      Faulty header rest fault
  | split {n : Nat} (hLength : contentLength header = .ok n) (hSplits : Splits n rest) :
      Faulty header rest .splitCharacter

variable {text header rest : List Char} {fault : Fault}

theorem Faulty.append (h : Faulty header rest fault) (more : List Char) :
    Faulty header (rest ++ more) fault := by
  cases h with
  | malformed hLength => exact .malformed hLength
  | split hLength hSplits => exact .split hLength (hSplits.append more)

theorem Faulty.fronts (h : Faulty header rest fault) (hBlock : Block text header rest) :
    Fronts text (.fault fault) := by
  cases h with
  | malformed hLength => exact .malformed hBlock hLength
  | split hLength hSplits => exact .split hBlock hLength hSplits

theorem Fronts.faulty (h : Fronts text (.fault fault)) :
    ∃ header rest, Block text header rest ∧ Faulty header rest fault := by
  cases h with
  | malformed hBlock hLength => exact ⟨_, _, hBlock, .malformed hLength⟩
  | split hBlock hLength hSplits => exact ⟨_, _, hBlock, .split hLength hSplits⟩

/-- Only whole frames are taken off the front of a text. -/
theorem content_left_suffix (text : List Char) : (content text).left <:+ text := by
  induction hLength : text.length using Nat.strongRecOn generalizing text with
  | ind n ih =>
    cases hFront : front text with
    | incomplete => simp [content_of_incomplete hFront]
    | fault fault => simp [content_of_fault hFront]
    | message message rest =>
      rw [content_of_message hFront]
      have hRest := ih _ (hLength ▸ front_length hFront) rest rfl
      cases fronts_iff.mpr hFront with
      | message hBlock =>
        rw [hBlock.eq]
        exact hRest.trans ((List.suffix_append _ _).trans (List.suffix_append _ _))

/-- The fault of a text is that of what is left of it. -/
theorem front_left_of_fault (h : (content text).fault = some fault) :
    front (content text).left = .fault fault := by
  induction hLength : text.length using Nat.strongRecOn generalizing text with
  | ind n ih =>
    cases hFront : front text with
    | incomplete => simp [content_of_incomplete hFront] at h
    | fault other =>
      rw [content_of_fault hFront] at h ⊢
      obtain rfl := Option.some.inj h
      exact hFront
    | message message rest =>
      rw [content_of_message hFront] at h ⊢
      exact ih _ (hLength ▸ front_length hFront) h rfl

/-- A text that says no message is left as it is. -/
theorem content_left_of_messages_eq_nil (h : (content text).messages = []) :
    (content text).left = text := by
  cases hFront : front text with
  | incomplete => rw [content_of_incomplete hFront]
  | fault fault => rw [content_of_fault hFront]
  | message message rest => simp [content_of_message hFront] at h

namespace Reader

/-- Receptions one after the other, whatever they bring. Each comes with the pieces that the
connection has for it until it fails. -/
def receiveEach : Reader → List (List (List Char)) → List Receipt × Reader
  | r, [] => ([], r)
  | r, pieces :: later =>
    let (receipt, r, _) := r.receive pieces
    let (receipts, r) := receiveEach r later
    (receipt :: receipts, r)

/-- What a reception brings that meets the fault once more. It has to be given something to look
at. -/
def again (fault : Fault) (pieces : List (List Char)) : Receipt :=
  if pieces = [] then .exhausted else .fault fault

variable {r stuck : Reader} {pieces left : List (List Char)}

/-- The fault is that of the text so far, and the messages in front of it are queued. -/
theorem receive_fault (h : r.receive pieces = (.fault fault, stuck, left)) :
    ∃ taken, pieces = taken ++ left ∧
      content (r.buffer ++ taken.flatten) = ⟨stuck.queue, stuck.buffer, some fault⟩ := by
  -- A reader with messages in its queue brings the first of them.
  have hQueue {r : Reader} {pieces : List (List Char)}
      (h : r.receive pieces = (.fault fault, stuck, left)) : r.queue = [] := by
    unfold receive next? at h
    split at h
    · cases h
    · rename_i hNone
      split at hNone
      · assumption
      · cases hNone
  induction pieces generalizing r with
  | nil =>
    unfold receive at h
    split at h <;> cases h
  | cons piece pieces ih =>
    have hEmpty := hQueue h
    unfold receive at h
    simp only [next?, hEmpty, feed_eq, List.nil_append] at h
    split at h
    · rename_i next found hFeed
      obtain ⟨hNext, hFault⟩ := Prod.mk.inj hFeed
      simp only [Prod.mk.injEq, Receipt.fault.injEq] at h
      obtain ⟨rfl, rfl, rfl⟩ := h
      refine ⟨[piece], rfl, ?_⟩
      rw [List.flatten_cons, List.flatten_nil, List.append_nil, ← hNext, ← hFault]
    · rename_i next hFeed
      obtain ⟨hNext, -⟩ := Prod.mk.inj hFeed
      -- The text so far says no message, so it is kept as a whole.
      have hMessages : (content (r.buffer ++ piece)).messages = [] := by
        have hNone := hQueue h
        rwa [← hNext] at hNone
      obtain ⟨taken, rfl, hContent⟩ := ih h
      refine ⟨piece :: taken, rfl, ?_⟩
      rw [← hNext, content_left_of_messages_eq_nil hMessages, List.append_assoc] at hContent
      exact hContent

theorem receive_message (m : String) (buffer : List Char) (queue : List String)
    (pieces : List (List Char)) :
    receive ⟨buffer, m :: queue⟩ pieces = (.message m, ⟨buffer, queue⟩, pieces) := by
  unfold receive
  rfl

/-- A reader without messages whose text begins with a fault takes one piece, if there is any, and
finds the same fault. -/
theorem receive_again {buffer : List Char} (hBlock : Block buffer header rest)
    (hFaulty : Faulty header rest fault) (pieces : List (List Char)) :
    receive ⟨buffer, []⟩ pieces =
      (again fault pieces, ⟨buffer ++ pieces.head?.getD [], []⟩, pieces.tail) := by
  cases pieces with
  | nil =>
    unfold receive
    simp [next?, again]
  | cons piece pieces =>
    have hFronts := (hFaulty.append piece).fronts (hBlock.append piece)
    have hContent := content_of_fault hFronts.front_eq
    unfold receive
    simp [next?, again, feed_eq, hContent]

/-- The pieces that later receptions take. -/
def takenBy (calls : List (List (List Char))) : List Char :=
  calls.flatMap fun pieces => pieces.head?.getD []

/-- From the fault on, the messages of the queue come, and then the fault for ever. -/
theorem receiveEach_of_faulty {buffer : List Char} (hBlock : Block buffer header rest)
    (hFaulty : Faulty header rest fault) (queue : List String)
    (calls : List (List (List Char))) :
    receiveEach ⟨buffer, queue⟩ calls =
      ((queue.map Receipt.message).take calls.length ++
          (calls.drop queue.length).map (again fault),
        ⟨buffer ++ takenBy (calls.drop queue.length), queue.drop calls.length⟩) := by
  induction calls generalizing buffer rest queue with
  | nil => simp [receiveEach, takenBy]
  | cons pieces calls ih =>
    cases queue with
    | cons m queue =>
      rw [receiveEach, receive_message]
      simp [ih hBlock hFaulty queue]
    | nil =>
      rw [receiveEach, receive_again hBlock hFaulty]
      simp [ih (hBlock.append _) (hFaulty.append _) [], takenBy]

end Reader

open Reader (receiveEach again takenBy)

/-- Whatever state a reader was in: when a reception has brought a fault, all later receptions,
with whatever pieces, bring the messages that were complete before the fault and are still queued,
and then the same fault, or nothing when the connection fails. The faulty frame begins behind the
last whole frame of the text so far. From there on all text is kept, with what arrives at its end,
and it begins with the same header block, which is faulty in the same way. -/
theorem framing_fault_stays {r stuck : Reader} {pieces left : List (List Char)}
    (h : r.receive pieces = (.fault fault, stuck, left)) :
    ∃ taken header rest,
      pieces = taken ++ left ∧ stuck.buffer <:+ r.buffer ++ taken.flatten ∧
      Says (r.buffer ++ taken.flatten) stuck.queue (some fault) ∧
      Block stuck.buffer header rest ∧ Faulty header rest fault ∧
      ∀ calls,
        (stuck.receiveEach calls).1 =
          (stuck.queue.map .message).take calls.length ++
            (calls.drop stuck.queue.length).map (again fault) ∧
        (stuck.receiveEach calls).2.queue = stuck.queue.drop calls.length ∧
        ∃ more, more = takenBy (calls.drop stuck.queue.length) ∧
          (stuck.receiveEach calls).2.buffer = stuck.buffer ++ more ∧
          Block (stuck.buffer ++ more) header (rest ++ more) ∧
          Faulty header (rest ++ more) fault := by
  obtain ⟨taken, hPieces, hContent⟩ := Reader.receive_fault h
  have hLeft := content_left_suffix (r.buffer ++ taken.flatten)
  have hSays := says_content (r.buffer ++ taken.flatten)
  have hFault : (content (r.buffer ++ taken.flatten)).fault = some fault := by rw [hContent]
  have hFront := front_left_of_fault hFault
  rw [hContent] at hLeft hSays hFront
  obtain ⟨header, rest, hBlock, hFaulty⟩ := (fronts_iff.mpr hFront).faulty
  refine ⟨taken, header, rest, hPieces, hLeft, hSays, hBlock, hFaulty, fun calls => ?_⟩
  rw [Reader.receiveEach_of_faulty hBlock hFaulty]
  exact ⟨rfl, rfl, _, rfl, rfl, hBlock.append _, hFaulty.append _⟩

/-- A whole frame, and one whose length ends inside its only character. -/
def splitPieces : List (List Char) :=
  ["Content-Length: 2\r\n\r\nok".toList ++ "Content-Length: 1\r\n\r\né".toList]

/-- What is left of them behind the fault. -/
def splitReader : Reader := ⟨"Content-Length: 1\r\n\r\né".toList, ["ok"]⟩

/-- The message in front of the fault comes, and then the fault as often as there is text. -/
theorem framing_fault_stays_split :
    Reader.empty.receive splitPieces = (.fault .splitCharacter, splitReader, []) ∧
    (splitReader.receiveEach
        [[], ["Content-Length: 2\r\n\r\nhi".toList, "x".toList], [], [[]]]).1 =
      [.message "ok", .fault .splitCharacter, .exhausted, .fault .splitCharacter] := by
  have hFault : Reader.empty.receive splitPieces = (.fault .splitCharacter, splitReader, []) := by
    decide
  obtain ⟨_, _, _, _, _, _, _, _, hStays⟩ := framing_fault_stays hFault
  exact ⟨hFault, (hStays _).1⟩

end EditorBridge.Frame
