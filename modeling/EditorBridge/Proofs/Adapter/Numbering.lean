import EditorBridge.Proofs.Adapter.Run
import EditorBridge.Proofs.Adapter.Texts
import Mathlib.Data.List.Forall2
/-!
One sequence for all messages of a client. A request gets its number when it is taken, and a reply
gets one when it is written; yet what the connection accepts is numbered 1, 2, 3 and so on, because
the loop looks at what has arrived only when every request taken before is written. Numbers are used
up in vain only when nothing is accepted any more.
-/
namespace EditorBridge.Adapter

/-- Numbers without a gap from the given one on. -/
def Consecutive : Nat → List Int → Prop
  | _, [] => True
  | n, seq :: rest => seq = n ∧ Consecutive (n + 1) rest

theorem consecutive_append {n : Nat} {first second : List Int} :
    Consecutive n (first ++ second) ↔
      Consecutive n first ∧ Consecutive (n + first.length) second := by
  induction first generalizing n with
  | nil => simp [Consecutive]
  | cons seq rest ih =>
    have hShift : n + 1 + rest.length = n + (rest.length + 1) := by omega
    simp only [List.cons_append, Consecutive, ih, List.length_cons, hShift, and_assoc]

theorem Consecutive.getElem? {n i : Nat} {seqs : List Int} {seq : Int} (h : Consecutive n seqs)
    (hSeq : seqs[i]? = some seq) : seq = n + i := by
  induction seqs generalizing n i with
  | nil => cases hSeq
  | cons first rest ih =>
    cases i with
    | zero =>
      obtain rfl := Option.some.inj hSeq
      simpa using h.1
    | succ i =>
      have hRest := ih h.2 (by simpa using hSeq)
      push_cast at hRest ⊢
      omega

/-- A reply that turns a request of the adapter down. -/
def Refuses (q : Request) (r : Response) : Prop :=
  r.success = false ∧ r.command = q.command ∧ r.requestSeq = q.seq

namespace Client

variable {c d : Client} {trace entries : List Entry}

/-- How what was accepted, what waits and the next number go together. Only a running loop has a
connection that can be written to. -/
structure Numbered (c : Client) (trace : List Entry) : Prop where
  accepted : Consecutive 1 ((messages trace).map Message.seq)
  running : c.writable = true → c.phase = .running
  waiting : c.writable = true →
    Consecutive (1 + (messages trace).length) (c.accepted.map Request.seq)
  next : c.writable = true → c.isOpen = true →
    c.nextSeq = 1 + (messages trace).length + c.accepted.length

/-- The requests that were taken are those that the connection accepted and those that wait. -/
def Tallied (c : Client) (trace : List Entry) : Prop :=
  ∃ rest, sentRequests trace = (messages trace).filterMap Message.request? ++ rest ∧
    (c.phase = .running → rest = c.accepted)

/-- The requests of the adapter and the replies to them stand in the same order. -/
def Replied (trace : List Entry) : Prop :=
  List.Forall₂ Refuses (asked trace) ((messages trace).filterMap Message.response?)

/-- A step that neither takes nor writes anything. -/
theorem Numbered.quiet (h : Numbered c trace) (hWritable : d.writable = true → c.writable = true)
    (hPhase : d.phase = c.phase) (hAccepted : d.accepted = c.accepted)
    (hNext : d.nextSeq = c.nextSeq) (hOpen : d.isOpen = true → c.isOpen = true)
    (hSilent : messages entries = []) : Numbered d (trace ++ entries) := by
  have hSame : messages (trace ++ entries) = messages trace := by simp [hSilent]
  constructor
  · rw [hSame]
    exact h.accepted
  · intro hNow
    rw [hPhase]
    exact h.running (hWritable hNow)
  · intro hNow
    rw [hSame, hAccepted]
    exact h.waiting (hWritable hNow)
  · intro hNow hStill
    rw [hSame, hAccepted, hNext]
    exact h.next (hWritable hNow) (hOpen hStill)

/-- Where nothing can be written any more, numbers do not matter. -/
theorem Numbered.lost (h : Numbered c trace) (hWritable : d.writable = false)
    (hSilent : messages entries = []) : Numbered d (trace ++ entries) := by
  have hSame : messages (trace ++ entries) = messages trace := by simp [hSilent]
  have hNever {p : Prop} (hNow : d.writable = true) : p := by simp [hWritable] at hNow
  exact ⟨hSame ▸ h.accepted, fun hNow => hNever hNow, fun hNow => hNever hNow,
    fun hNow => hNever hNow⟩

/-- A step of the loop numbers what it writes with the next number. -/
theorem Numbered.loop (h : Numbered c trace) (hTurn : LoopTurn c d entries) :
    Numbered d (trace ++ entries) := by
  cases hTurn with
  | @wrote r rest hRunning hAccepted hWritable =>
    have hWaiting := h.waiting hWritable
    rw [hAccepted] at hWaiting
    obtain ⟨hSeq, hRest⟩ := hWaiting
    have hMore : messages (trace ++ [.wrote (.request r)]) = messages trace ++ [.request r] := by
      simp [messages]
    constructor
    · rw [hMore, List.map_append, consecutive_append]
      exact ⟨h.accepted, by simpa [Message.seq] using hSeq, trivial⟩
    · intro _
      exact hRunning
    · intro _
      rw [hMore, List.length_append]
      exact hRest
    · intro _ hOpen
      have hNext := h.next hWritable hOpen
      simp only [hMore, hAccepted, List.length_append, List.length_cons, List.length_nil] at hNext ⊢
      omega
  | unwritten hRunning hAccepted hWritable => exact h.lost (leave_writable _) rfl
  | closed hRunning hAccepted hClosed => exact h.lost (leave_writable _) rfl
  | @handled m _ connection said hRunning hAccepted hOpen hReceive hHandled =>
    have hSame : ({ c with connection } : Client).writable = c.writable := by
      simp only [writable, Frame.Connection.writable, Frame.Connection.receive_message hReceive]
    obtain ⟨hPhase, hStill, hQueue, hAfter, -⟩ := hHandled.same
    rw [hSame] at hAfter
    cases hHandled with
    | dropped hParse => exact h.quiet hAfter.symm.trans hPhase hQueue rfl hStill.symm.trans rfl
    | @resolved r hParse =>
      have hNext : ({ c with connection }.resolve r).nextSeq = c.nextSeq := by
        rcases resolve_cases { c with connection } r with ⟨seq, -, -, hEq⟩ | ⟨-, hEq⟩ <;> rw [hEq]
      exact h.quiet hAfter.symm.trans hPhase hQueue hNext hStill.symm.trans rfl
    | @queued e hParse =>
      have hNext : ({ c with connection }.queueEvent e).nextSeq = c.nextSeq := by
        unfold queueEvent
        split <;> rfl
      exact h.quiet hAfter.symm.trans hPhase hQueue hNext hStill.symm.trans rfl
    | @replied q hParse hWritable =>
      have hNow : c.writable = true := hSame ▸ hWritable
      -- Nothing waits, so the next number is the one that the connection has come to.
      have hNext := h.next hNow hOpen
      rw [hAccepted] at hNext
      have hMore : messages (trace ++ .received m c.writable ::
          [.response (refusal c.nextSeq q)].map .wrote) =
          messages trace ++ [.response (refusal c.nextSeq q)] := by
        simp [messages]
      constructor
      · rw [hMore, List.map_append, consecutive_append]
        exact ⟨h.accepted, by simp [Message.seq, refusal, hNext], trivial⟩
      · intro _
        exact hRunning
      · intro _
        simp only [hAccepted]
        exact trivial
      · intro _ _
        simp only [hMore, hAccepted, List.length_append, List.length_cons,
          List.length_nil] at hNext ⊢
        omega
    | unreplied hParse hWritable => exact h.lost hWritable rfl
  | read hRunning hReceive =>
    exact h.quiet (Frame.Connection.receive_same hReceive).2.2.2.2 rfl rfl rfl id rfl
  | failed hRunning hReceive => exact h.lost (leave_writable _) rfl
  | ended hClosing =>
    have hWritable : c.writable = false := by
      cases hNow : c.writable with
      | false => rfl
      | true => simp [h.running hNow] at hClosing
    exact h.lost hWritable rfl

/-- Every step leaves the numbers in order. -/
theorem Numbered.turn {action : Action} (h : Numbered c trace) (hTurn : Turn c action d entries) :
    Numbered d (trace ++ entries) := by
  cases hTurn with
  | @sent command arguments hTakes =>
    have hOpen := (takesRequests_iff.mp hTakes).1
    have hSame : messages (trace ++ [.sent ⟨c.nextSeq, command, arguments⟩]) = messages trace := by
      simp [messages]
    constructor
    · rw [hSame]
      exact h.accepted
    · exact h.running
    · intro hNow
      rw [hSame, List.map_append, consecutive_append]
      refine ⟨h.waiting hNow, ?_, trivial⟩
      have hNext := h.next hNow hOpen
      simp [hNext]
    · intro hNow _
      have hNext := h.next hNow hOpen
      simp only [hSame, List.length_append, List.length_singleton]
      omega
  | refused hTakes =>
    have hSame : messages (trace ++ [.refused c.nextSeq]) = messages trace := by simp [messages]
    refine ⟨hSame ▸ h.accepted, h.running, hSame ▸ h.waiting, fun hNow hOpen => ?_⟩
    -- A client that refuses while the connection can be written to has no caller any more.
    have hRunning : c.phase = .running := h.running hNow
    have hClosed : c.isOpen = true ∧ c.phase ≠ .ended := ⟨hOpen, by simp [hRunning]⟩
    rw [← takesRequests_iff, hTakes] at hClosed
    cases hClosed
  | returned | expired | took | missed => exact h.quiet id rfl rfl rfl id rfl
  | loop hTurn => exact h.loop hTurn
  | dropped => exact h.quiet id rfl rfl rfl (absurd · Bool.false_ne_true) rfl
  | aborted => exact h.lost (Frame.Connection.close_writable c.connection) rfl
  | moved => exact h.quiet Stream.Transport.after_writable rfl rfl rfl id rfl

theorem Tallied.quiet (h : Tallied c trace) (hPhase : d.phase = .running → c.phase = .running)
    (hAccepted : d.phase = .running → d.accepted = c.accepted)
    (hSent : sentRequests entries = [])
    (hSilent : (messages entries).filterMap Message.request? = []) :
    Tallied d (trace ++ entries) := by
  obtain ⟨rest, hAll, hRest⟩ := h
  refine ⟨rest, by simp [hAll, hSent, hSilent], fun hRunning => ?_⟩
  rw [hRest (hPhase hRunning), hAccepted hRunning]

theorem Tallied.loop (h : Tallied c trace) (hTurn : LoopTurn c d entries) :
    Tallied d (trace ++ entries) := by
  cases hTurn with
  | @wrote r rest hRunning hAccepted hWritable =>
    obtain ⟨waiting, hAll, hWaiting⟩ := h
    refine ⟨rest, ?_, fun _ => rfl⟩
    rw [hWaiting hRunning, hAccepted] at hAll
    have hMore : messages [.wrote (.request r)] = [.request r] := rfl
    have hSent : sentRequests [.wrote (.request r)] = [] := rfl
    simp [hAll, hMore, hSent, Message.request?]
  | unwritten | closed | failed => exact h.quiet Frame.LoopPhase.noConfusion Frame.LoopPhase.noConfusion rfl rfl
  | handled hRunning hAccepted hOpen hReceive hHandled =>
    obtain ⟨hPhase, -, hQueue, -⟩ := hHandled.same
    refine h.quiet (hPhase.symm.trans ·) (fun _ => hQueue) ?_ ?_
    · simp [sentRequests]
    · cases hHandled <;> rfl
  | read hRunning hReceive => exact h.quiet id (fun _ => rfl) rfl rfl
  | ended hClosing => exact h.quiet Frame.LoopPhase.noConfusion Frame.LoopPhase.noConfusion rfl rfl

/-- A request that is taken goes behind those that wait. -/
theorem Tallied.turn {action : Action} (h : Tallied c trace) (hTurn : Turn c action d entries) :
    Tallied d (trace ++ entries) := by
  cases hTurn with
  | @sent command arguments hTakes =>
    obtain ⟨rest, hAll, hRest⟩ := h
    refine ⟨rest ++ [⟨c.nextSeq, command, arguments⟩], ?_, fun hRunning => ?_⟩
    · have hSent : sentRequests [.sent ⟨c.nextSeq, command, arguments⟩] =
          [⟨c.nextSeq, command, arguments⟩] := rfl
      have hSilent : messages [.sent ⟨c.nextSeq, command, arguments⟩] = [] := rfl
      simp [hAll, hSent, hSilent]
    · rw [hRest hRunning]
  | loop hTurn => exact h.loop hTurn
  | aborted => exact h.quiet Frame.LoopPhase.noConfusion Frame.LoopPhase.noConfusion rfl rfl
  | refused | returned | expired | took | missed | dropped | moved =>
    exact h.quiet id (fun _ => rfl) rfl rfl

/-- Acting on a message replies to it exactly if it is a request and the connection takes it. -/
theorem Handled.replied_iff {m : String} {said : List Message} (h : Handled m c d said) :
    List.Forall₂ Refuses (asked [.received m c.writable])
      (said.filterMap Message.response?) := by
  cases h with
  | dropped hParse | resolved hParse | queued hParse =>
    cases hWritable : c.writable <;> simp [asked, hParse]
  | replied hParse hWritable =>
    simp [asked, hParse, hWritable, Message.response?, Refuses, refusal]
  | unreplied hParse hWritable =>
    simp [asked, hWritable]

theorem Replied.loop (h : Replied trace) (hTurn : LoopTurn c d entries) :
    Replied (trace ++ entries) := by
  have hMore (hEntries : List.Forall₂ Refuses (asked entries)
      ((messages entries).filterMap Message.response?)) : Replied (trace ++ entries) := by
    simp only [Replied, asked_append, messages_append, List.filterMap_append]
    exact List.rel_append h hEntries
  apply hMore
  cases hTurn with
  | wrote | unwritten | closed | read | failed | ended => exact .nil
  | @handled m _ connection said hRunning hAccepted hOpen hReceive hHandled =>
    have hSame : ({ c with connection } : Client).writable = c.writable := by
      simp only [writable, Frame.Connection.writable, Frame.Connection.receive_message hReceive]
    have hReplied := hHandled.replied_iff
    rw [hSame] at hReplied
    rw [← List.singleton_append, asked_append, messages_append]
    simpa [messages] using hReplied

theorem Replied.turn {action : Action} (h : Replied trace) (hTurn : Turn c action d entries) :
    Replied (trace ++ entries) := by
  cases hTurn with
  | loop hTurn => exact h.loop hTurn
  | sent | refused | returned | expired | took | missed | dropped | aborted | moved =>
    simpa [Replied, asked, messages] using h

/-- Whatever the connection takes is in the trace, and it is all that is put on its way. -/
theorem Turn.outbox {action : Action} (hTurn : Turn c action d entries)
    (hOwn : ∀ happening, action ≠ .transport happening) :
    d.outbox = c.outbox ++ (messages entries).map Message.frame := by
  cases hTurn with
  | loop hTurn =>
    cases hTurn with
    | wrote => rfl
    | unwritten | closed | ended => exact (List.append_nil _).symm
    | @handled m _ connection said hRunning hAccepted hOpen hReceive hHandled =>
      obtain ⟨-, -, -, -, hOutbox⟩ := hHandled.same
      rw [← List.singleton_append, messages_append, messages_wrote]
      rw [hOutbox]
      have hSame := (Frame.Connection.receive_same hReceive).1
      simpa [outbox, messages] using hSame
    | read hRunning hReceive | failed hRunning hReceive =>
      exact (Frame.Connection.receive_same hReceive).1.trans (List.append_nil _).symm
  | moved => exact absurd rfl (hOwn _)
  | sent | refused | returned | expired | took | missed | dropped | aborted =>
    exact (List.append_nil _).symm

theorem Run.numbered {start : Client} (hRun : Run start trace c) (h : Numbered start []) :
    Numbered c trace := by
  induction hRun with
  | start => exact h
  | step prior last ih => exact ih.turn (Client.turn last)

theorem Run.tallied {start : Client} (hRun : Run start trace c) (h : Tallied start []) :
    Tallied c trace := by
  induction hRun with
  | start => exact h
  | step prior last ih => exact ih.turn (Client.turn last)

theorem Run.replied {start : Client} (hRun : Run start trace c) : Replied trace := by
  induction hRun with
  | start => exact .nil
  | step prior last ih => exact ih.turn (Client.turn last)

theorem numbered_create (transport : Stream.Transport) : Numbered (create transport) [] :=
  ⟨trivial, fun _ => rfl, fun _ => trivial, fun _ _ => rfl⟩

theorem tallied_create (transport : Stream.Transport) : Tallied (create transport) [] :=
  ⟨[], rfl, fun _ => rfl⟩

end Client

/-- In every run, whatever arrives and in whatever order callers, the loop and the peer act, the
messages that the connection accepts are numbered 1, 2, 3 and so on; the requests among them are
those of the callers, in order, and each request of the adapter that is received while the
connection can be written to is turned down once, in order. Nothing else is put on its way, and what
is written of a message is read back as that message. -/
theorem messages_numbered_in_order {transport : Stream.Transport} {trace : List Entry} {c : Client}
    (hRun : Client.Run (.create transport) trace c) :
    (∀ (n : Nat) m, (messages trace)[n]? = some m → m.seq = n + 1) ∧
    (messages trace).filterMap Message.request? <+: sentRequests trace ∧
    List.Forall₂ Refuses (asked trace) ((messages trace).filterMap Message.response?) ∧
    (∀ action d entries, c.next? action = some (d, entries) →
      (∀ happening, action ≠ .transport happening) →
      d.outbox = c.outbox ++ (messages entries).map Message.frame) ∧
    ∀ m ∈ messages trace, m.WellFormed → m.Legible → Message.parse m.text = .ok m := by
  refine ⟨?_, ?_, hRun.replied, ?_, fun m _ => Message.parse_text⟩
  · intro n m hMessage
    have hSeq : ((messages trace).map Message.seq)[n]? = some m.seq := by simp [hMessage]
    have hNumber := (hRun.numbered (Client.numbered_create transport)).accepted.getElem? hSeq
    omega
  · obtain ⟨rest, hAll, -⟩ := hRun.tallied (Client.tallied_create transport)
    exact ⟨rest, hAll.symm⟩
  · intro action d entries hStep hOwn
    exact (Client.turn hStep).outbox hOwn

/-- While a request of the adapter is under way, a second request is sent: it is written first. -/
def overtaken : Option (List Entry × Client) :=
  (Client.create .fresh).follow?
    [.send "threads" none, .loop,
      .transport (.arrive (Utf8.encode (Frame.encode
        "\x7b\"seq\":7,\"type\":\"request\",\"command\":\"runInTerminal\"\x7d").toList)),
      .loop, .send "continue" none, .loop, .loop]

theorem overtaken_shown :
    overtaken.map (fun (trace, _) => ((messages trace).map Message.seq,
      (messages trace).map (·.request?.map Request.command), (asked trace).map Request.command)) =
      some ([1, 2, 3], [some "threads", some "continue", none], ["runInTerminal"]) := by
  decide +kernel

theorem overtaken_in_order :
    ∃ trace c q r, overtaken = some (trace, c) ∧
      (∀ (n : Nat) m, (messages trace)[n]? = some m → m.seq = n + 1) ∧
      asked trace = [q] ∧ (messages trace).filterMap Message.response? = [r] ∧ Refuses q r := by
  obtain ⟨⟨trace, c⟩, hEval, hShown⟩ := Option.map_eq_some_iff.mp overtaken_shown
  simp only [Prod.mk.injEq] at hShown
  obtain ⟨hSeq, -, hReplies, -⟩ := messages_numbered_in_order (Client.run_of_follow? hEval)
  obtain ⟨q, hAsked, -⟩ := List.map_eq_singleton_iff.mp hShown.2.2
  rw [hAsked] at hReplies
  obtain ⟨r, hRefuses, hResponses⟩ : ∃ r, Refuses q r ∧
      (messages trace).filterMap Message.response? = [r] := by
    obtain ⟨r, rest, hRefuses, hRest, hResponses⟩ := List.forall₂_cons_left_iff.mp hReplies
    obtain rfl := List.forall₂_nil_left_iff.mp hRest
    exact ⟨r, hRefuses, hResponses⟩
  exact ⟨trace, c, q, r, hEval, hSeq, hAsked, hResponses, hRefuses⟩

end EditorBridge.Adapter
