import EditorBridge.Adapter.Client
import EditorBridge.Proofs.Frame.Connection
/-!
Runs of a client of a debug adapter in which each of its functions is one step. Callers, the loop
and the peer act in any order, and the trace of a run tells what was sent, what the loop acted on,
what the connection accepted and what the callers got. What a step of the loop can do is said once,
in `LoopTurn`.
-/
namespace EditorBridge.Adapter

namespace Message

def seq : Message → Int
  | .request r => r.seq
  | .response r => r.seq
  | .event e => e.seq

def request? : Message → Option Request
  | .request r => some r
  | _ => none

def response? : Message → Option Response
  | .response r => some r
  | _ => none

/-- A message as it is handed to the connection under the frames. -/
def frame (m : Message) : String := Frame.encode m.text

end Message

/-- What a trace tells. -/
inductive Entry where
  | sent (request : Request)
  | refused (seq : Nat)
  /-- The loop acts on a message; could the connection be written to then? -/
  | received (text : String) (writable : Bool)
  /-- The connection accepts a message. -/
  | wrote (message : Message)
  | took (event : Event)
  /-- A wait for an event has ended without one: its time is over, or none will come. -/
  | noEvent
  /-- The time of a caller is over. -/
  | expired (seq : Nat) (command : String) (limit : Duration)
  | returned (seq : Nat) (result : Except CallError Response)
  /-- The loop leaves the connection, and with it the messages that it has read and not acted on. -/
  | left (unheard : List String)
  /-- The loop tells those who wait for answers that none will come. -/
  | ended
  /-- The loop is stopped from outside, before it has told those who wait. -/
  | cutOff (unheard : List String)

/-- The messages that the connection has accepted. -/
def messages (trace : List Entry) : List Message :=
  trace.filterMap fun
    | .wrote m => some m
    | _ => none

/-- The requests that were taken from callers. -/
def sentRequests (trace : List Entry) : List Request :=
  trace.filterMap fun
    | .sent r => some r
    | _ => none

/-- The requests of the adapter that were received while the connection could be written to. -/
def asked (trace : List Entry) : List Request :=
  trace.filterMap fun
    | .received text true =>
      match Message.parse text with
      | .ok (.request r) => some r
      | _ => none
    | _ => none

section Projections

variable (first second : List Entry)

@[simp] theorem messages_append : messages (first ++ second) = messages first ++ messages second :=
  List.filterMap_append ..

@[simp] theorem sentRequests_append :
    sentRequests (first ++ second) = sentRequests first ++ sentRequests second :=
  List.filterMap_append ..

@[simp] theorem asked_append : asked (first ++ second) = asked first ++ asked second :=
  List.filterMap_append ..

@[simp] theorem messages_wrote (said : List Message) : messages (said.map .wrote) = said :=
  (List.filterMap_map ..).trans List.filterMap_some

@[simp] theorem asked_wrote (said : List Message) : asked (said.map .wrote) = [] := by
  simp [asked]

end Projections

namespace Client

/-- Is a message that the loop sends now accepted? -/
def writable (c : Client) : Bool := c.connection.writable

/-- The texts that are on their way to the peer. -/
def outbox (c : Client) : List String := c.connection.transport.outbox

/-- The message that the next step of the loop acts on. -/
def inbound? (c : Client) : Option String :=
  if c.phase = .running ∧ c.accepted = [] ∧ c.isOpen then
    match c.connection.receive.1 with
    | .message m => some m
    | _ => none
  else none

/-- What acting on a message says. -/
def reply? (c : Client) (m : String) : Option Message :=
  match Message.parse m with
  | .ok (.request r) => some (.response (refusal c.nextSeq r))
  | _ => none

/-- The message that the next step of the loop hands to the connection. -/
def utterance? (c : Client) : Option Message :=
  if c.phase = .running then
    match c.accepted with
    | r :: _ => some (.request r)
    | [] => c.inbound?.bind c.reply?
  else none

/-- What the connection accepts, of what is said from one moment to the next. -/
def wrote (c d : Client) (said : Option Message) : List Message :=
  if d.outbox.length = c.outbox.length then [] else said.toList

/-- What can happen to a client. -/
inductive Action where
  | send (command : String) (arguments : Option Json)
  | poll (seq : Nat)
  | giveUp (seq : Nat) (command : String) (limit : Duration)
  | takeEvent
  | missEvent
  | loop
  | dropSender
  | abort
  | transport (happening : Stream.Happening)

/-- What becomes of a client and what the trace tells about it; none where nothing can happen. An
answer or an event that is there is never given up. -/
def next? (c : Client) : Action → Option (Client × List Entry)
  | .send command arguments =>
    match c.send command arguments with
    | (d, .ok seq) => some (d, [.sent ⟨seq, command, arguments⟩])
    | (d, .error _) => some (d, [.refused c.nextSeq])
  | .poll seq => (c.poll? seq).map fun (d, result) => (d, [.returned seq result])
  | .giveUp seq command limit =>
    match c.poll? seq with
    | some _ => none
    | none => some (c.giveUp seq,
        [.expired seq command limit, .returned seq (.error (.timeout command limit))])
  | .takeEvent => c.takeEvent?.map fun (d, e) => (d, [.took e])
  | .missEvent => if c.events = [] then some (c, [.noEvent]) else none
  | .loop => c.loopStep?.map fun d =>
    (d, c.inbound?.toList.map (.received · c.writable) ++ (c.wrote d c.utterance?).map .wrote ++
      if d.phase = .ended then [.ended] else [])
  | .dropSender => some (c.dropSender, [])
  | .abort => some (c.abort, [])
  | .transport happening =>
    some ({ c with connection := c.connection.onto (·.after happening) }, [])

/-- The steps of a client one after the other, with their trace. -/
inductive Run (c : Client) : List Entry → Client → Prop where
  | start : Run c [] c
  | step {trace entries : List Entry} {d e : Client} {action : Action} (prior : Run c trace d)
      (last : d.next? action = some (e, entries)) : Run c (trace ++ entries) e

/-- What comes of given actions one after the other, if each of them can happen. -/
def follow? (c : Client) : List Action → Option (List Entry × Client)
  | [] => some ([], c)
  | action :: rest =>
    match c.next? action with
    | none => none
    | some (d, entries) => (follow? d rest).map fun (trace, e) => (entries ++ trace, e)

variable {c d e : Client} {m : String} {entries : List Entry}

theorem Run.single {action : Action}
    (h : c.next? action = some (d, entries)) : Run c entries d := .step .start h

theorem Run.trans {first second : List Entry} (hFirst : Run c first d) (hSecond : Run d second e) :
    Run c (first ++ second) e := by
  induction hSecond with
  | start => simpa using hFirst
  | step prior last ih => rw [← List.append_assoc]; exact .step ih last

theorem follow?_cons {action : Action} {rest : List Action} {more : List Entry}
    (h : c.next? action = some (d, entries)) (hRest : d.follow? rest = some (more, e)) :
    c.follow? (action :: rest) = some (entries ++ more, e) := by
  simp only [follow?, h, hRest, Option.map_some]

theorem follow?_single {action : Action} (h : c.next? action = some (d, entries)) :
    c.follow? [action] = some (entries, d) := by
  rw [follow?_cons h rfl, List.append_nil]

theorem run_of_follow? {actions : List Action} {trace : List Entry}
    (h : c.follow? actions = some (trace, d)) : Run c trace d := by
  induction actions generalizing c trace with
  | nil =>
    obtain ⟨rfl, rfl⟩ := Prod.mk.inj (Option.some.inj h)
    exact .start
  | cons action rest ih =>
    unfold follow? at h
    split at h
    · cases h
    · rename_i e entries hStep
      obtain ⟨⟨more, f⟩, hRest, hEnd⟩ := Option.map_eq_some_iff.mp h
      obtain ⟨rfl, rfl⟩ := Prod.mk.inj hEnd
      exact (Run.single hStep).trans (ih hRest)

/-- Only a loop that goes on takes messages. -/
theorem running_of_inbound (h : c.inbound? = some m) : c.phase = .running := by
  unfold inbound? at h
  split at h
  · rename_i hRunning
    exact hRunning.1
  · cases h

/-- What acting on a message does to a client that has just taken it from the connection, and what
is written. -/
inductive Handled (m : String) (c : Client) : Client → List Message → Prop where
  | dropped {fault : DecodeFault} (hParse : Message.parse m = .error fault) : Handled m c c []
  | resolved {r : Response} (hParse : Message.parse m = .ok (.response r)) :
      Handled m c (c.resolve r) []
  | queued {e : Event} (hParse : Message.parse m = .ok (.event e)) : Handled m c (c.queueEvent e) []
  | replied {q : Request} (hParse : Message.parse m = .ok (.request q))
      (hWritable : c.writable = true) :
      Handled m c { c with
        nextSeq := c.nextSeq + 1
        connection := c.connection.put (Message.response (refusal c.nextSeq q)).text }
        [.response (refusal c.nextSeq q)]
  | unreplied {q : Request} (hParse : Message.parse m = .ok (.request q))
      (hWritable : c.writable = false) : Handled m c { c with nextSeq := c.nextSeq + 1 } []

theorem handled (c : Client) (m : String) : ∃ said, Handled m c (c.handle m) said := by
  unfold handle
  split
  · rename_i fault hParse
    exact ⟨_, .dropped hParse⟩
  · rename_i r hParse
    exact ⟨_, .resolved hParse⟩
  · rename_i e hParse
    exact ⟨_, .queued hParse⟩
  · rename_i q hParse
    cases hWritable : c.writable with
    | true =>
      have hSend := Frame.Connection.send_of_writable hWritable
        (Message.response (refusal c.nextSeq q)).text
      simp only [refuse, hSend]
      exact ⟨_, .replied hParse hWritable⟩
    | false =>
      obtain ⟨fault, hSend⟩ := Frame.Connection.send_of_not_writable hWritable
        (Message.response (refusal c.nextSeq q)).text
      simp only [refuse, hSend]
      exact ⟨_, .unreplied hParse hWritable⟩

/-- Taking an answer to its request touches only the requests that are open. -/
theorem resolve_cases (c : Client) (r : Response) :
    (∃ seq ∈ c.pending, r.requestSeq = seq ∧ c.resolve r =
      { c with pending := c.pending.erase seq, answers := c.answers ++ [⟨seq, r⟩] }) ∨
    (∀ seq ∈ c.pending, r.requestSeq ≠ seq) ∧ c.resolve r = c := by
  unfold resolve
  split
  · rename_i hSeq
    refine .inr ⟨fun seq _ hSame => ?_, rfl⟩
    simp [hSame, Int.toNat?] at hSeq
  · rename_i seq hSeq
    have hSame : r.requestSeq = seq := Int.mem_toNat?.mp hSeq
    split
    · rename_i hOpen
      exact .inl ⟨seq, by simpa using hOpen, hSame, rfl⟩
    · rename_i hClosed
      refine .inr ⟨fun other hOther hEq => ?_, rfl⟩
      obtain rfl : other = seq := Int.ofNat.inj (hEq.symm.trans hSame)
      simp [hOther] at hClosed

/-- Acting on a message leaves the loop where it was, and writes what it says. -/
theorem Handled.same {said : List Message} (h : Handled m c d said) :
    d.phase = c.phase ∧ d.isOpen = c.isOpen ∧ d.accepted = c.accepted ∧ d.writable = c.writable ∧
      d.outbox = c.outbox ++ said.map Message.frame := by
  cases h with
  | dropped hParse => simp
  | @resolved r hParse =>
    rcases resolve_cases c r with ⟨seq, -, -, hSame⟩ | ⟨-, hSame⟩ <;>
    · rw [hSame]
      exact ⟨rfl, rfl, rfl, rfl, (List.append_nil _).symm⟩
  | queued hParse =>
    unfold queueEvent
    split <;> exact ⟨rfl, rfl, rfl, rfl, (List.append_nil _).symm⟩
  | replied hParse hWritable => exact ⟨rfl, rfl, rfl, rfl, rfl⟩
  | unreplied hParse hWritable => exact ⟨rfl, rfl, rfl, rfl, (List.append_nil _).symm⟩

/-- What a step of the loop does: it hands the oldest request to the connection, or takes what has
arrived, or leaves, or ends. -/
inductive LoopTurn (c : Client) : Client → List Entry → Prop where
  | wrote {r : Request} {rest : List Request} (hRunning : c.phase = .running)
      (hAccepted : c.accepted = r :: rest) (hWritable : c.writable = true) :
      LoopTurn c
        { c with accepted := rest, connection := c.connection.put (Message.request r).text }
        [.wrote (.request r)]
  | unwritten {r : Request} {rest : List Request} (hRunning : c.phase = .running)
      (hAccepted : c.accepted = r :: rest) (hWritable : c.writable = false) :
      LoopTurn c { c with accepted := rest }.leave []
  | closed (hRunning : c.phase = .running) (hAccepted : c.accepted = [])
      (hClosed : c.isOpen = false) : LoopTurn c c.leave []
  | handled {m : String} {d : Client} {connection : Frame.Connection} {said : List Message}
      (hRunning : c.phase = .running)
      (hAccepted : c.accepted = []) (hOpen : c.isOpen = true)
      (hReceive : c.connection.receive = (.message m, connection))
      (hHandled : Handled m { c with connection } d said) :
      LoopTurn c d (.received m c.writable :: said.map .wrote)
  | read {connection : Frame.Connection} (hRunning : c.phase = .running)
      (hReceive : c.connection.receive = (.text, connection)) : LoopTurn c { c with connection } []
  | failed {connection : Frame.Connection} (hRunning : c.phase = .running)
      (hReceive : c.connection.receive = (.failed, connection)) :
      LoopTurn c ({ c with connection } : Client).leave []
  | ended (hClosing : c.phase = .closing) :
      LoopTurn c { c with phase := .ended, pending := [], accepted := [] } [.ended]

/-- The loop sends no request of its own. -/
theorem LoopTurn.silent (h : LoopTurn c d entries) : sentRequests entries = [] := by
  cases h with
  | handled => simp [sentRequests]
  | wrote | unwritten | closed | read | failed | ended => rfl

/-- The loop goes on, leaves the connection without a word, or ends. -/
theorem LoopTurn.phases (h : LoopTurn c d entries) :
    (c.phase = .running ∧ d.phase = .running) ∨
    (c.phase = .running ∧ d.phase = .closing ∧ entries = []) ∨
    (c.phase = .closing ∧ d.phase = .ended) := by
  cases h with
  | wrote hRunning | read hRunning => exact .inl ⟨hRunning, hRunning⟩
  | handled hRunning hAccepted hOpen hReceive hHandled =>
    exact .inl ⟨hRunning, hHandled.same.1.trans hRunning⟩
  | unwritten hRunning | closed hRunning | failed hRunning => exact .inr (.inl ⟨hRunning, rfl, rfl⟩)
  | ended hClosing => exact .inr (.inr ⟨hClosing, rfl⟩)

theorem wrote_of_outbox_eq {said : Option Message} (h : d.outbox = c.outbox) :
    c.wrote d said = [] := by
  simp [wrote, h]

theorem wrote_of_put {m : Message} (h : d.outbox = c.outbox ++ [m.frame]) :
    c.wrote d (some m) = [m] := by
  simp [wrote, h]

/-- What the connection accepts is what acting on the message says. -/
theorem Handled.wrote {said : List Message} (h : Handled m c d said) :
    c.wrote d (c.reply? m) = said := by
  obtain ⟨-, -, -, -, hOutbox⟩ := h.same
  cases h with
  | @replied q hParse hWritable =>
    have hReply : c.reply? m = some (.response (refusal c.nextSeq q)) := by
      simp only [reply?, hParse]
    rw [hReply]
    exact wrote_of_put hOutbox
  | dropped | resolved | queued | unreplied =>
    exact wrote_of_outbox_eq (hOutbox.trans (List.append_nil _))

/-- What the trace tells of a step of the loop that takes no message and is not the last. -/
theorem quiet_entries {said : List Message} (hStep : c.loopStep? = some d)
    (hInbound : c.inbound? = none) (hWrote : c.wrote d c.utterance? = said)
    (hPhase : d.phase ≠ .ended) :
    c.next? .loop = some (d, said.map .wrote) := by
  simp [next?, hStep, hInbound, hWrote, hPhase]

/-- The oldest request is written, unless the connection does not take it. -/
theorem write_turn {r : Request} {rest : List Request} (hRunning : c.phase = .running)
    (hAccepted : c.accepted = r :: rest) :
    ∃ entries, c.next? .loop = some ({ c with accepted := rest }.write r, entries) ∧
      LoopTurn c ({ c with accepted := rest }.write r) entries := by
  have hStep : c.loopStep? = some ({ c with accepted := rest }.write r) := by
    simp only [loopStep?, hRunning, hAccepted]
  have hInbound : c.inbound? = none := by simp [inbound?, hAccepted]
  cases hWritable : c.writable with
  | true =>
    have hSend := Frame.Connection.send_of_writable hWritable (Message.request r).text
    have hWrite : ({ c with accepted := rest } : Client).write r = { c with
        accepted := rest, connection := c.connection.put (Message.request r).text } := by
      simp only [write, hSend]
    rw [hWrite] at hStep ⊢
    have hSaid : c.utterance? = some (.request r) := by simp [utterance?, hRunning, hAccepted]
    have hWrote : c.wrote { c with
        accepted := rest, connection := c.connection.put (Message.request r).text } c.utterance? =
        [.request r] := by
      rw [hSaid]
      exact wrote_of_put rfl
    exact ⟨_, quiet_entries hStep hInbound hWrote (by simp [hRunning]),
      .wrote hRunning hAccepted hWritable⟩
  | false =>
    obtain ⟨fault, hSend⟩ :=
      Frame.Connection.send_of_not_writable hWritable (Message.request r).text
    have hWrite : ({ c with accepted := rest } : Client).write r =
        ({ c with accepted := rest } : Client).leave := by
      simp only [write, hSend]
    rw [hWrite] at hStep ⊢
    refine ⟨_, quiet_entries hStep hInbound (wrote_of_outbox_eq rfl) (by simp [leave]), ?_⟩
    exact .unwritten hRunning hAccepted hWritable

/-- What the trace tells of a message that the loop takes and acts on. -/
theorem handled_entries {connection : Frame.Connection} {said : List Message}
    (hInbound : c.inbound? = some m) (hRunning : c.phase = .running) (hAccepted : c.accepted = [])
    (hReceive : c.connection.receive = (.message m, connection))
    (hHandled : Handled m { c with connection } d said) (hStep : c.loopStep? = some d) :
    c.next? .loop = some (d, .received m c.writable :: said.map .wrote) := by
  obtain ⟨hPhase, -⟩ := hHandled.same
  have hSaid : c.utterance? = c.reply? m := by
    simp [utterance?, hRunning, hAccepted, hInbound]
  have hWrote : c.wrote d c.utterance? = said := by
    rw [hSaid, ← hHandled.wrote]
    have hSame : ({ c with connection } : Client).outbox = c.outbox :=
      (Frame.Connection.receive_same hReceive).1
    simp only [Client.wrote, hSame]
    rfl
  have hNotEnded : d.phase ≠ .ended := by
    rw [hPhase]
    simp [hRunning]
  simp [next?, hStep, hInbound, hWrote, hNotEnded]

theorem receive_turn (hRunning : c.phase = .running) (hAccepted : c.accepted = [])
    (hOpen : c.isOpen = true) (hStep : c.receiveStep? = some d) :
    ∃ entries, c.next? .loop = some (d, entries) ∧ LoopTurn c d entries := by
  have hLoop : c.loopStep? = some d := by
    simp only [loopStep?, hRunning, hAccepted, hOpen, hStep, if_true]
  unfold receiveStep? at hStep
  split at hStep
  · rename_i m connection hReceive
    obtain rfl := Option.some.inj hStep
    have hInbound : c.inbound? = some m := by simp [inbound?, hRunning, hAccepted, hOpen, hReceive]
    obtain ⟨said, hHandled⟩ := handled { c with connection } m
    exact ⟨_, handled_entries hInbound hRunning hAccepted hReceive hHandled hLoop,
      .handled hRunning hAccepted hOpen hReceive hHandled⟩
  · rename_i connection hReceive
    obtain rfl := Option.some.inj hStep
    have hInbound : c.inbound? = none := by simp [inbound?, hReceive]
    have hSame := (Frame.Connection.receive_same hReceive).1
    exact ⟨_, quiet_entries hLoop hInbound (wrote_of_outbox_eq hSame) (by simp [hRunning]),
      .read hRunning hReceive⟩
  · cases hStep
  · rename_i connection hReceive
    obtain rfl := Option.some.inj hStep
    have hInbound : c.inbound? = none := by simp [inbound?, hReceive]
    have hSame := (Frame.Connection.receive_same hReceive).1
    exact ⟨_, quiet_entries hLoop hInbound (wrote_of_outbox_eq hSame) (by simp [leave]),
      .failed hRunning hReceive⟩

/-- Every step of the loop is one of the turns. -/
theorem loop_turn (h : c.next? .loop = some (d, entries)) : LoopTurn c d entries := by
  have hTurn {e : Client} (hStep : c.loopStep? = some e)
      (hTurn : ∃ entries, c.next? .loop = some (e, entries) ∧ LoopTurn c e entries) :
      LoopTurn c d entries := by
    obtain ⟨entries', hNext, hTurn⟩ := hTurn
    obtain ⟨rfl, rfl⟩ := Prod.mk.inj (Option.some.inj (h.symm.trans hNext))
    exact hTurn
  cases hPhase : c.phase with
  | ended => simp [next?, loopStep?, hPhase] at h
  | closing =>
    have hInbound : c.inbound? = none := by simp [inbound?, hPhase]
    have hWrote {e : Client} : c.wrote e c.utterance? = [] := by simp [wrote, utterance?, hPhase]
    have hEnds : c.forget.letGo.phase = .ended := rfl
    simp only [next?, loopStep?, hPhase, hInbound, hWrote, hEnds, Option.map_some, Option.some.injEq,
      Prod.mk.injEq, Option.toList_none, List.map_nil, List.nil_append, if_true] at h
    obtain ⟨rfl, rfl⟩ := h
    exact .ended hPhase
  | running =>
    cases hAccepted : c.accepted with
    | cons r rest =>
      exact hTurn (by simp only [loopStep?, hPhase, hAccepted]) (write_turn hPhase hAccepted)
    | nil =>
      cases hOpen : c.isOpen with
      | true =>
        cases hReceive : c.receiveStep? with
        | none => simp [next?, loopStep?, hPhase, hAccepted, hOpen, hReceive] at h
        | some e =>
          exact hTurn (by simp only [loopStep?, hPhase, hAccepted, hOpen, hReceive, if_true])
            (receive_turn hPhase hAccepted hOpen hReceive)
      | false =>
        have hStep : c.loopStep? = some c.leave := by
          simp [loopStep?, hPhase, hAccepted, hOpen]
        refine hTurn hStep ⟨_, quiet_entries hStep ?_ (wrote_of_outbox_eq rfl) (by simp [leave]),
          .closed hPhase hAccepted hOpen⟩
        simp [inbound?, hOpen]

/-- What any step does. -/
inductive Turn (c : Client) : Action → Client → List Entry → Prop where
  | sent {command : String} {arguments : Option Json} (hTakes : c.takesRequests = true) :
      Turn c (.send command arguments)
        { c with
          nextSeq := c.nextSeq + 1
          accepted := c.accepted ++ [⟨c.nextSeq, command, arguments⟩]
          pending := c.pending ++ [c.nextSeq] }
        [.sent ⟨c.nextSeq, command, arguments⟩]
  | refused {command : String} {arguments : Option Json} (hTakes : c.takesRequests = false) :
      Turn c (.send command arguments) { c with nextSeq := c.nextSeq + 1 } [.refused c.nextSeq]
  | returned {seq : Nat} {answers : List Answer} {result : Except CallError Response}
      (hPoll : c.poll? seq = some ({ c with answers }, result)) :
      Turn c (.poll seq) { c with answers } [.returned seq result]
  | expired {seq : Nat} {command : String} {limit : Duration} (hPoll : c.poll? seq = none) :
      Turn c (.giveUp seq command limit) (c.giveUp seq)
        [.expired seq command limit, .returned seq (.error (.timeout command limit))]
  | took {e : Event} {rest : List Event} (hEvents : c.events = e :: rest) :
      Turn c .takeEvent { c with events := rest } [.took e]
  | missed (hEvents : c.events = []) : Turn c .missEvent c [.noEvent]
  | loop {d : Client} {entries : List Entry} (hTurn : LoopTurn c d entries) :
      Turn c .loop d entries
  | dropped : Turn c .dropSender c.dropSender []
  | aborted : Turn c .abort c.abort []
  | moved {happening : Stream.Happening} :
      Turn c (.transport happening)
        { c with connection := c.connection.onto (·.after happening) } []

theorem takesRequests_iff : c.takesRequests = true ↔ c.isOpen = true ∧ c.phase ≠ .ended := by
  simp [takesRequests]

theorem leave_writable (c : Client) : c.leave.writable = false :=
  Frame.Connection.close_writable c.connection

theorem send_taken (h : c.takesRequests = true) (command : String) (arguments : Option Json) :
    c.send command arguments = ({ c with
      nextSeq := c.nextSeq + 1
      accepted := c.accepted ++ [⟨c.nextSeq, command, arguments⟩]
      pending := c.pending ++ [c.nextSeq] }, .ok c.nextSeq) := by
  have hTakes : ({ c with nextSeq := c.nextSeq + 1 } : Client).takesRequests = true := h
  simp only [send, hTakes, if_true]

theorem send_refused (h : c.takesRequests = false) (command : String) (arguments : Option Json) :
    c.send command arguments = ({ c with nextSeq := c.nextSeq + 1 }, .error .transport) := by
  have hTakes : ({ c with nextSeq := c.nextSeq + 1 } : Client).takesRequests = false := h
  simp [send, hTakes]

theorem next?_send_taken (h : c.takesRequests = true) (command : String)
    (arguments : Option Json) : c.next? (.send command arguments) = some ({ c with
      nextSeq := c.nextSeq + 1
      accepted := c.accepted ++ [⟨c.nextSeq, command, arguments⟩]
      pending := c.pending ++ [c.nextSeq] }, [.sent ⟨c.nextSeq, command, arguments⟩]) := by
  simp only [next?, send_taken h]

theorem next?_send_refused (h : c.takesRequests = false) (command : String)
    (arguments : Option Json) : c.next? (.send command arguments) =
      some ({ c with nextSeq := c.nextSeq + 1 }, [.refused c.nextSeq]) := by
  simp only [next?, send_refused h]

/-- Looking for an answer touches only the answers. -/
theorem poll?_frame {seq : Nat} {result : Except CallError Response}
    (h : c.poll? seq = some (d, result)) : d = { c with answers := d.answers } := by
  unfold poll? at h
  split at h
  · cases h
    rfl
  · split at h
    · cases h
    · cases h
      rfl

/-- Every step is one of the turns. -/
theorem turn {action : Action} (h : c.next? action = some (d, entries)) :
    Turn c action d entries := by
  cases action with
  | send command arguments =>
    cases hTakes : c.takesRequests with
    | true =>
      rw [next?_send_taken hTakes] at h
      cases h
      exact .sent hTakes
    | false =>
      rw [next?_send_refused hTakes] at h
      cases h
      exact .refused hTakes
  | poll seq =>
    obtain ⟨⟨e, result⟩, hPoll, hEq⟩ := Option.map_eq_some_iff.mp h
    cases hEq
    have hFrame := poll?_frame hPoll
    rw [hFrame] at hPoll ⊢
    exact .returned hPoll
  | giveUp seq command limit =>
    simp only [next?] at h
    split at h
    · cases h
    · rename_i hPoll
      cases h
      exact .expired hPoll
  | takeEvent =>
    obtain ⟨⟨f, event⟩, hTake, hEq⟩ := Option.map_eq_some_iff.mp h
    cases hEq
    unfold takeEvent? at hTake
    split at hTake
    · cases hTake
    · rename_i hEvents
      cases hTake
      exact .took hEvents
  | missEvent =>
    simp only [next?] at h
    split at h
    · rename_i hEvents
      cases h
      exact .missed hEvents
    · cases h
  | loop => exact .loop (loop_turn h)
  | dropSender =>
    cases h
    exact .dropped
  | abort =>
    cases h
    exact .aborted
  | transport happening =>
    cases h
    exact .moved

/-- Only sending sends. -/
theorem Turn.silent {action : Action} (h : Turn c action d entries)
    (hOther : ∀ command arguments, action ≠ .send command arguments) :
    sentRequests entries = [] := by
  cases h with
  | sent => exact absurd rfl (hOther _ _)
  | loop hTurn => exact hTurn.silent
  | refused | returned | expired | took | missed | dropped | aborted | moved => rfl

end Client
end EditorBridge.Adapter
