import EditorBridge.Proofs.Frame.Connection
import EditorBridge.Proofs.Rpc.Pending
import EditorBridge.Proofs.Rpc.Sending
/-!
Courses of steps of a client, its callers and its connection, with the way that messages take in
them. A message goes through two queues, the client's and its connection's. Callers put messages
into the first one, the loop hands them on to the second one, and the writer of the connection
empties that; the replies to the requests of the server go through the second queue only. What the
connection does without the client is a step of its own here, so that the peer's reading can be told
apart from the rest.
-/
namespace EditorBridge.Rpc

/-- A message on its way to the peer. -/
inductive Said where
  /-- The message of a caller. -/
  | own (text : String)
  /-- The reply to a request of the server. -/
  | reply (response : Response)

namespace Said

def frame : Said → String
  | own text => Frame.encode text
  | reply response => Frame.encode response.text

def own? : Said → Option String
  | own text => some text
  | reply _ => none

def reply? : Said → Option Response
  | own _ => none
  | reply response => some response

end Said

/-- What the client and its callers do, or what happens on the connection without them. The requests
of the server may be answered differently each time. -/
inductive Step where
  | own (answer : Request → Response) (move : Move)
  | outside (happening : Stream.Happening)

namespace Step

/-- The peer does not go away, and nobody else touches the connection. -/
def Stays : Step → Prop
  | own _ (.transport _) => False
  | outside .breakOff => False
  | _ => True

/-- The loop is stopped from outside: closing does this when the two seconds that it waits for the
loop are over. -/
def CutsOff : Step → Prop
  | own _ .abort => True
  | _ => False

def Calm (step : Step) : Prop := step.Stays ∧ ¬ step.CutsOff

/-- Is it the loop's turn? -/
def isLoop : Step → Bool
  | own _ .loop => true
  | _ => false

/-- Is it the turn of the connection's writer? -/
def isWrite : Step → Bool
  | outside .write => true
  | _ => false

/-- Is it the peer's turn? -/
def isRead : Step → Bool
  | outside .read => true
  | _ => false

end Step

/-- The request of the server that a message is, if it is one. -/
def request? (m : String) : Option Request :=
  match Inbound.parse m with
  | .ok (.request r) => some r
  | _ => none

namespace Exchange

def transport (x : Exchange) : Stream.Transport := x.client.connection.transport

/-- What comes of a step. One that cannot be made changes nothing. -/
def after (x : Exchange) : Step → Exchange
  | .own answer move => (x.next? answer move).getD x
  | .outside happening =>
    { x with client :=
      { x.client with connection := x.client.connection.onto (·.after happening) } }

/-- The messages of callers that are taken in a step, and not refused. -/
def accepts (x : Exchange) : Step → List String
  | .own _ (.advance id) =>
    match x.stage id with
    | .entering text =>
      match x.client.enqueue text with
      | .ok _ => [text]
      | .error _ => []
    | _ => []
  | .own _ (.notify method params) =>
    match (x.client.notify method params).2 with
    | .ok () => [(Utterance.notice method params).text]
    | .error _ => []
  | _ => []

/-- The replies that are given in a step. -/
def replies (x : Exchange) : Step → List Response
  | .own answer .loop => (x.held.bind request?).toList.map answer
  | _ => []

/-- What the peer reads in a step. -/
def reads (x : Exchange) : Step → List String
  | .own _ _ => []
  | .outside happening => x.transport.seen happening

/-- How many steps the loop still has to make once the client is closed. -/
def load (x : Exchange) : Nat :=
  x.client.accepted.length + x.held.toList.length +
    match x.client.phase with
    | .running => 3
    | .closing => if x.emptied then 1 else 2
    | .ended => 0

end Exchange

/-- Where the steps have led, and what was taken, replied and read on the way. -/
structure Course where
  now : Exchange
  /-- The messages of callers that were taken. -/
  taken : List String
  replies : List Response
  /-- What the peer has read. -/
  read : List String

namespace Course

def start : Course := ⟨.create .fresh, [], [], []⟩

def after (c : Course) (step : Step) : Course :=
  ⟨c.now.after step, c.taken ++ c.now.accepts step, c.replies ++ c.now.replies step,
    c.read ++ c.now.reads step⟩

def afterAll (c : Course) (steps : List Step) : Course := steps.foldl after c

/-- No caller can hand in a message any more. -/
def close (c : Course) : Course :=
  { c with now := { c.now with client := c.now.client.dropSender } }

/-- The course after so many steps of a schedule. -/
def along (c : Course) (schedule : Nat → Step) : Nat → Course
  | 0 => c
  | n + 1 => (c.along schedule n).after (schedule n)

end Course

namespace Client

variable {answer : Request → Response} {c d : Client}

theorem refusal?_of_closed (h : c.isOpen = false) : c.refusal? = some .clientClosed := by
  simp [refusal?, h]

theorem write_of_writable {text : String} (h : c.connection.writable = true) :
    c.write text = { c with connection := c.connection.put text } := by
  simp only [write, Frame.Connection.send_of_writable h]

/-- Acting on a message writes the reply, if it is a request, and changes nothing else on the way of
messages. -/
theorem handle_writes {m : String} {effects : List Effect}
    (hWritable : c.connection.writable = true) (h : c.handle answer m = (d, effects)) :
    d.accepted = c.accepted ∧ d.phase = c.phase ∧ d.isOpen = c.isOpen ∧
      ((request? m = none ∧ d.connection = c.connection) ∨
        ∃ r, request? m = some r ∧ d.connection = c.connection.put (answer r).text) := by
  unfold handle dispatch at h
  unfold request?
  cases hParse : Inbound.parse m with
  | error e =>
    simp only [hParse] at h
    cases h
    exact ⟨rfl, rfl, rfl, .inl ⟨rfl, rfl⟩⟩
  | ok inbound =>
    cases inbound with
    | notification n =>
      simp only [hParse] at h
      cases h
      exact ⟨rfl, rfl, rfl, .inl ⟨rfl, rfl⟩⟩
    | request r =>
      simp only [hParse, write_of_writable hWritable] at h
      cases h
      exact ⟨rfl, rfl, rfl, .inr ⟨r, rfl, rfl⟩⟩
    | response r =>
      simp only [hParse] at h
      cases hId : r.id.nat? with
      | none =>
        simp only [hId] at h
        cases h
        exact ⟨rfl, rfl, rfl, .inl ⟨rfl, rfl⟩⟩
      | some id =>
        simp only [hId] at h
        split at h
        · rename_i hDispatch
          split at hDispatch <;> cases hDispatch <;> cases h <;>
            exact ⟨rfl, rfl, rfl, .inl ⟨rfl, rfl⟩⟩
        · rename_i hDispatch
          split at hDispatch <;> cases hDispatch

end Client

namespace Exchange

variable {answer : Request → Response} {x y : Exchange}

theorem accepts_advance {id : Nat} {text : String} (hStage : x.stage id = .entering text) :
    x.accepts (.own answer (.advance id)) = if x.client.refusal? = none then [text] else [] := by
  cases hRefusal : x.client.refusal? <;> simp [accepts, hStage, Client.enqueue, hRefusal]

theorem accepts_notify (method : String) (params : Option Json) :
    x.accepts (.own answer (.notify method params)) =
      if x.client.refusal? = none then [(Utterance.notice method params).text] else [] := by
  cases hRefusal : x.client.refusal? <;>
    simp [accepts, Client.notify, Client.enqueue, hRefusal]

theorem accepts_of_not_entering {id : Nat} (hStage : ∀ text, x.stage id ≠ .entering text) :
    x.accepts (.own answer (.advance id)) = [] := by
  simp only [accepts]

/-- A closed client takes nothing. -/
theorem accepts_of_closed (h : x.client.isOpen = false) (step : Step) : x.accepts step = [] := by
  have hRefusal := Client.refusal?_of_closed h
  unfold accepts
  split
  · split
    · simp [Client.enqueue, hRefusal]
    · rfl
  · simp [Client.notify, Client.enqueue, hRefusal]
  · rfl

/-- What the callers do adds to the messages that wait, and to nothing else on their way. -/
structure CallerFrame (x : Exchange) (answer : Request → Response) (move : Move) : Prop where
  connection : (x.after (.own answer move)).client.connection = x.client.connection
  phase : (x.after (.own answer move)).client.phase = x.client.phase
  held : (x.after (.own answer move)).held = x.held
  emptied : (x.after (.own answer move)).emptied = x.emptied
  accepted : (x.after (.own answer move)).client.accepted =
    x.client.accepted ++ x.accepts (.own answer move)
  closed : x.client.isOpen = false → (x.after (.own answer move)).client.isOpen = false

theorem CallerFrame.of {move : Move} (hNow : x.after (.own answer move) = y)
    (hConnection : y.client.connection = x.client.connection)
    (hPhase : y.client.phase = x.client.phase) (hHeld : y.held = x.held)
    (hEmptied : y.emptied = x.emptied)
    (hAccepted : y.client.accepted = x.client.accepted ++ x.accepts (.own answer move))
    (hClosed : x.client.isOpen = false → y.client.isOpen = false) : x.CallerFrame answer move := by
  subst hNow
  exact ⟨hConnection, hPhase, hHeld, hEmptied, hAccepted, hClosed⟩

theorem advance_frame (x : Exchange) (answer : Request → Response) (other : Nat) :
    x.CallerFrame answer (.advance other) := by
  cases hStep : x.advance? other with
  | none =>
    have hNow : x.after (.own answer (.advance other)) = x := by simp [after, next?, hStep]
    have hNothing : x.accepts (.own answer (.advance other)) = [] := by
      apply accepts_of_not_entering
      intro text hStage
      cases hRefusal : x.client.refusal? with
      | none => cases hStep.symm.trans (advance?_taken hStage hRefusal)
      | some refusal => cases hStep.symm.trans (advance?_refused hStage hRefusal)
    exact .of hNow rfl rfl rfl rfl (by rw [hNothing, List.append_nil]) id
  | some y =>
    have hNow : x.after (.own answer (.advance other)) = y := by simp [after, next?, hStep]
    rcases advance?_cases hStep with ⟨text, hStage, hRefusal, rfl⟩ |
      ⟨text, refusal, hStage, hRefusal, rfl⟩ | ⟨ending, hLeaving, rfl⟩ | ⟨outcome, hStage, rfl⟩
    · exact .of hNow rfl rfl rfl rfl (by simp [accepts_advance hStage, hRefusal]) id
    · exact .of hNow rfl rfl rfl rfl (by simp [accepts_advance hStage, hRefusal, enter]) id
    · have hNothing : x.accepts (.own answer (.advance other)) = [] := by
        apply accepts_of_not_entering
        intro text hStage
        rw [hStage] at hLeaving
        exact hLeaving
      exact .of hNow rfl rfl rfl rfl (by simp [hNothing, takeOut]) id
    · have hNothing : x.accepts (.own answer (.advance other)) = [] :=
        accepts_of_not_entering (by simp [hStage])
      exact .of hNow rfl rfl rfl rfl (by simp [hNothing]) id

theorem caller_frame {move : Move} (hCalm : (Step.own answer move).Calm) (hOther : move ≠ .loop) :
    x.CallerFrame answer move := by
  cases move with
  | begin method params =>
    cases params <;> exact ⟨rfl, rfl, rfl, rfl, (List.append_nil _).symm, id⟩
  | advance other => exact advance_frame x answer other
  | expire other =>
    have hNow : x.after (.own answer (.expire other)) = x.expire other := rfl
    have hSame : (x.expire other).client = x.client ∧ (x.expire other).held = x.held ∧
        (x.expire other).emptied = x.emptied := by
      unfold expire
      split <;> exact ⟨rfl, rfl, rfl⟩
    exact .of hNow (by rw [hSame.1]) (by rw [hSame.1]) hSame.2.1 hSame.2.2
      (by rw [hSame.1]; exact (List.append_nil _).symm) (by rw [hSame.1]; exact id)
  | notify method params =>
    cases hRefusal : x.client.refusal? with
    | none =>
      have hNow : x.after (.own answer (.notify method params)) = { x with client :=
          { x.client with
            accepted := x.client.accepted ++ [(Utterance.notice method params).text] } } := by
        simp [after, next?, Client.notify, Client.enqueue, hRefusal, Utterance.text]
      exact .of hNow rfl rfl rfl rfl (by simp [accepts_notify, hRefusal]) id
    | some refusal =>
      have hNow : x.after (.own answer (.notify method params)) = x := by
        simp [after, next?, Client.notify, Client.enqueue, hRefusal]
      exact .of hNow rfl rfl rfl rfl (by simp [accepts_notify, hRefusal]) id
  | loop => exact absurd rfl hOther
  | dropSender => exact ⟨rfl, rfl, rfl, rfl, (List.append_nil _).symm, fun _ => rfl⟩
  | abort => exact absurd trivial hCalm.2
  | transport change => exact hCalm.1.elim

theorem replies_of_idle (h : x.held = none) : x.replies (.own answer .loop) = [] := by
  simp [replies, h]

/-- What the loop does to the messages on their way, as long as the connection takes them. -/
inductive LoopPass (answer : Request → Response) (x y : Exchange) : Prop where
  /-- It hands messages to the connection, the oldest that waits or a reply, or it takes something
  in, which it does for an open client only. -/
  | went (more : List Said) (hPhase : x.client.phase = .running ∧ y.client.phase = .running)
      (hAccepted : x.client.accepted = more.filterMap Said.own? ++ y.client.accepted)
      (hReplies : x.replies (.own answer .loop) = more.filterMap Said.reply?)
      (hOutbox : y.transport.outbox = x.transport.outbox ++ more.map Said.frame)
      (hWire : y.transport.wire = x.transport.wire)
      (hWritable : y.client.connection.writable = x.client.connection.writable)
      (hLoad : x.client.isOpen = true ∨ y.load < x.load)
  /-- All is written and nobody is left to hand in more. -/
  | left (hHeld : x.held = none ∧ y.held = none)
      (hAccepted : x.client.accepted = [] ∧ y.client.accepted = [])
      (hPhase : x.client.phase = .running ∧ y.client.phase = .closing)
      (hConnection : y.client.connection = x.client.connection.close)
  /-- The stream of the peer has ended or has a fault. -/
  | failed (hHeld : x.held = none ∧ y.held = none) (hOpen : x.client.isOpen = true)
      (hPhase : x.client.phase = .running ∧ y.client.phase = .closing)
  | gaveUp (hHeld : x.held = none ∧ y.held = none)
      (hAccepted : y.client.accepted = x.client.accepted)
      (hPhase : x.client.phase = .closing ∧ y.client.phase = .closing)
      (hConnection : y.client.connection = x.client.connection)
      (hEmptied : x.emptied = false ∧ y.emptied = true)
  | ended (hHeld : x.held = none ∧ y.held = none) (hAccepted : y.client.accepted = [])
      (hPhase : x.client.phase = .closing ∧ y.client.phase = .ended)
      (hConnection : y.client.connection = x.client.connection)

/-- It writes the oldest message that waits. -/
theorem LoopPass.wrote {m : String} (hHeld : x.held = none ∧ y.held = none)
    (hAccepted : x.client.accepted = m :: y.client.accepted)
    (hPhase : x.client.phase = .running ∧ y.client.phase = .running)
    (hConnection : y.client.connection = x.client.connection.put m) : LoopPass answer x y := by
  have hTransport : y.transport = x.transport.put (Frame.encode m) :=
    congrArg (·.transport) hConnection
  apply LoopPass.went [.own m] hPhase hAccepted
  · simp [replies, hHeld.1, Said.reply?]
  · rw [hTransport]
    rfl
  · rw [hTransport]
    rfl
  · rw [hConnection]
    rfl
  · simp [load, hAccepted, hHeld, hPhase]

/-- It acts on the message that it holds. -/
theorem LoopPass.acted {m : String} (hHeld : x.held = some m ∧ y.held = none)
    (hAccepted : y.client.accepted = x.client.accepted)
    (hPhase : x.client.phase = .running ∧ y.client.phase = .running)
    (hConnection : (request? m = none ∧ y.client.connection = x.client.connection) ∨
      ∃ r, request? m = some r ∧ y.client.connection = x.client.connection.put (answer r).text) :
    LoopPass answer x y := by
  have hLoad : y.load < x.load := by simp [load, hAccepted, hHeld, hPhase]
  rcases hConnection with ⟨hRequest, hSame⟩ | ⟨r, hRequest, hPut⟩
  · apply LoopPass.went [] hPhase hAccepted.symm
    · simp [replies, hHeld.1, hRequest]
    · simp [transport, hSame]
    · rw [transport, hSame, transport]
    · rw [hSame]
    · exact .inr hLoad
  · have hTransport : y.transport = x.transport.put (Frame.encode (answer r).text) :=
      congrArg (·.transport) hPut
    apply LoopPass.went [.reply (answer r)] hPhase hAccepted.symm
    · simp [replies, hHeld.1, hRequest, Said.reply?]
    · rw [hTransport]
      rfl
    · rw [hTransport]
      rfl
    · rw [hPut]
      rfl
    · exact .inr hLoad

/-- It takes a message or a piece of text. -/
theorem LoopPass.received (hHeld : x.held = none) (hOpen : x.client.isOpen = true)
    (hAccepted : y.client.accepted = x.client.accepted)
    (hPhase : x.client.phase = .running ∧ y.client.phase = .running)
    (hOutbox : y.transport.outbox = x.transport.outbox)
    (hWire : y.transport.wire = x.transport.wire)
    (hWritable : y.client.connection.writable = x.client.connection.writable) :
    LoopPass answer x y := by
  apply LoopPass.went [] hPhase hAccepted.symm
  · simp [replies, hHeld]
  · simp [hOutbox]
  · exact hWire
  · exact hWritable
  · exact .inl hOpen

/-- What the loop does when it holds nothing and there is no message for it to take. -/
theorem loop_pass_idle {d : Client} {effects : List Effect} (hHeld : x.held = none)
    (hWritable : x.client.phase = .running → x.client.connection.writable = true)
    (hInbound : x.client.inbound? = none) (hGoesOn : x.client.phase ≠ .closing)
    (h : x.client.loopStep? answer = some (d, effects)) (hClient : y.client = d)
    (hNone : y.held = none) : LoopPass answer x y ∧ y.client.isOpen = x.client.isOpen := by
  unfold Client.loopStep? at h
  split at h
  · cases h
  · rename_i hClosing
    exact absurd hClosing hGoesOn
  · rename_i hRunning
    split at h
    · rename_i m rest hAccepted
      have hTakes : ({ x.client with accepted := rest } : Client).connection.writable = true :=
        hWritable hRunning
      rw [Client.write_of_writable hTakes] at h
      obtain ⟨rfl, -⟩ := Prod.mk.inj (Option.some.inj h)
      exact ⟨.wrote ⟨hHeld, hNone⟩ (by rw [hClient, hAccepted])
        ⟨hRunning, by rw [hClient, hRunning]⟩ (by rw [hClient]), by rw [hClient]⟩
    · rename_i hAccepted
      split at h
      · rename_i hOpen
        unfold Client.receiveStep? at h
        split at h
        · rename_i m connection hReceive
          simp [Client.inbound?, hRunning, hAccepted, hOpen, hReceive] at hInbound
        · rename_i connection hReceive
          obtain ⟨rfl, -⟩ := Prod.mk.inj (Option.some.inj h)
          obtain ⟨hOutbox, hWire, -⟩ := Frame.Connection.receive_same hReceive
          exact ⟨.received hHeld hOpen (by rw [hClient]) ⟨hRunning, by rw [hClient, hRunning]⟩
            (by rw [transport, hClient, hOutbox, transport])
            (by rw [transport, hClient, hWire, transport])
            (by rw [hClient, Frame.Connection.receive_text hReceive]), by rw [hClient]⟩
        · cases h
        · obtain ⟨rfl, -⟩ := Prod.mk.inj (Option.some.inj h)
          exact ⟨.failed ⟨hHeld, hNone⟩ hOpen ⟨hRunning, by rw [hClient]; rfl⟩,
            by rw [hClient]; rfl⟩
      · obtain ⟨rfl, -⟩ := Prod.mk.inj (Option.some.inj h)
        exact ⟨.left ⟨hHeld, hNone⟩ ⟨hAccepted, by rw [hClient]; exact hAccepted⟩
          ⟨hRunning, by rw [hClient]; rfl⟩ (by rw [hClient]; rfl), by rw [hClient]; rfl⟩

/-- What the loop does at its end. -/
theorem wrapUp_pass (hHeld : x.held = none) (hClosing : x.client.phase = .closing) :
    LoopPass answer x x.wrapUp ∧ x.wrapUp.client.isOpen = x.client.isOpen := by
  unfold wrapUp
  split
  · exact ⟨.ended ⟨hHeld, hHeld⟩ rfl ⟨hClosing, rfl⟩ rfl, rfl⟩
  · rename_i hFirst
    obtain ⟨hClient, hNone, hEmptied⟩ :=
      tellAll_frame { x with client := x.client.giveUp.1, emptied := true } x.client.giveUp.2
    exact ⟨.gaveUp ⟨hHeld, hNone.trans hHeld⟩ (congrArg (·.accepted) hClient)
      ⟨hClosing, (congrArg (·.phase) hClient).trans hClosing⟩ (congrArg (·.connection) hClient)
      ⟨by simpa using hFirst, hEmptied⟩, congrArg (·.isOpen) hClient⟩

theorem LoopPass.not_ended (h : LoopPass answer x y) : x.client.phase ≠ .ended := by
  cases h with
  | went more hPhase => simp [hPhase.1]
  | left hHeld hAccepted hPhase => simp [hPhase.1]
  | failed hHeld hOpen hPhase => simp [hPhase.1]
  | gaveUp hHeld hAccepted hPhase => simp [hPhase.1]
  | ended hHeld hAccepted hPhase => simp [hPhase.1]

theorem loop_pass (hHolding : x.held ≠ none → x.client.phase = .running)
    (hWritable : x.client.phase = .running → x.client.connection.writable = true)
    (h : x.loopStep? answer = some y) :
    LoopPass answer x y ∧ y.client.isOpen = x.client.isOpen := by
  unfold loopStep? at h
  cases hHeld : x.held with
  | some m =>
    have hRunning := hHolding (by simp [hHeld])
    cases hHandle : x.client.handle answer m with
    | mk d effects =>
      simp only [hHeld, hHandle] at h
      obtain rfl := Option.some.inj h
      obtain ⟨hClient, hNone, -⟩ :=
        tellAll_frame ({ x with client := d, held := none } : Exchange) effects
      replace hClient : _ = d := hClient
      obtain ⟨hAccepted, hPhase, hOpen, hConnection⟩ :=
        Client.handle_writes (hWritable hRunning) hHandle
      rw [← hClient] at hAccepted hPhase hOpen hConnection
      exact ⟨.acted ⟨hHeld, hNone⟩ hAccepted ⟨hRunning, hPhase.trans hRunning⟩ hConnection, hOpen⟩
  | none =>
    simp only [hHeld] at h
    cases hInbound : x.client.inbound? with
    | some m =>
      simp only [hInbound] at h
      obtain rfl := Option.some.inj h
      unfold Client.inbound? at hInbound
      split at hInbound
      · rename_i hReady
        obtain ⟨hRunning, -, hOpen⟩ := hReady
        split at hInbound
        · rename_i text hArrival
          have hSame : x.client.connection.receive.2.transport = x.transport :=
            Frame.Connection.receive_message (Prod.ext hArrival rfl)
          exact ⟨.received hHeld hOpen rfl ⟨hRunning, hRunning⟩ (congrArg (·.outbox) hSame)
            (congrArg (·.wire) hSame) (congrArg (·.writable) hSame), rfl⟩
        · cases hInbound
      · cases hInbound
    | none =>
      simp only [hInbound] at h
      split at h
      · rename_i hClosing
        obtain rfl := Option.some.inj h
        exact wrapUp_pass hHeld hClosing
      · rename_i hGoesOn
        obtain ⟨⟨d, effects⟩, hStep, rfl⟩ := Option.map_eq_some_iff.mp h
        obtain ⟨hClient, hNone, -⟩ :=
          tellAll_frame ({ x with client := d, held := none } : Exchange) effects
        exact loop_pass_idle hHeld hWritable hInbound hGoesOn hStep hClient hNone

/-- A loop that is about to leave or has left does not run again. -/
theorem loop_leaving (hHeld : x.held = none) (hPhase : x.client.phase ≠ .running)
    (h : x.loopStep? answer = some y) : y.client.phase ≠ .running ∧ y.held = none := by
  obtain ⟨hPass, -⟩ := loop_pass (fun hNot => absurd hHeld hNot) (fun h => absurd h hPhase) h
  cases hPass with
  | went more hPhase' => exact absurd hPhase'.1 hPhase
  | left hHeld' hAccepted hPhase' => exact absurd hPhase'.1 hPhase
  | failed hHeld' hOpen hPhase' => exact absurd hPhase'.1 hPhase
  | gaveUp hHeld' hAccepted hPhase' => exact ⟨by simp [hPhase'.2], hHeld'.2⟩
  | ended hHeld' hAccepted hPhase' => exact ⟨by simp [hPhase'.2], hHeld'.2⟩

end Exchange

namespace Course

variable {step : Step}

/-- Who has made a step. -/
inductive Turn (c : Course) : Step → Prop where
  | outside {happening : Stream.Happening} (hStays : happening ≠ .breakOff) :
      Turn c (.outside happening)
  | idle {answer : Request → Response} (hStep : c.now.loopStep? answer = none)
      (hSame : c.after (.own answer .loop) = c) : Turn c (.own answer .loop)
  | loop {answer : Request → Response}
      (hStep : c.now.loopStep? answer = some (c.after (.own answer .loop)).now) :
      Turn c (.own answer .loop)
  | caller {answer : Request → Response} {move : Move} (hOther : move ≠ .loop)
      (hFrame : c.now.CallerFrame answer move) : Turn c (.own answer move)

theorem turn (c : Course) (hCalm : step.Calm) : c.Turn step := by
  cases step with
  | outside happening =>
    apply Turn.outside
    rintro rfl
    exact hCalm.1
  | own answer move =>
    by_cases hLoop : move = .loop
    · subst hLoop
      cases hStep : c.now.loopStep? answer with
      | none =>
        have hHeld : c.now.held = none := by
          unfold Exchange.loopStep? at hStep
          split at hStep
          · cases hStep
          · assumption
        apply Turn.idle hStep
        simp [after, Exchange.after, Exchange.next?, Exchange.accepts, Exchange.reads, hStep,
          Exchange.replies_of_idle hHeld]
      | some y =>
        apply Turn.loop
        simp [after, Exchange.after, Exchange.next?, hStep]
    · exact .caller hLoop (Exchange.caller_frame hCalm hLoop)

end Course
end EditorBridge.Rpc
