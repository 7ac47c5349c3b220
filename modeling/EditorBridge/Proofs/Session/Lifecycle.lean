import EditorBridge.Proofs.Rpc.Texts
import EditorBridge.Proofs.Session.Sound
/-!
The messages of a session on the wire. In every run, and for every attempt, they come in one order:
the first request, the two notifications behind its answer, the notifications that are forwarded,
the shutdown request and the notification of the exit; and from some point on, none. What has been
said so far is told by how far the attempt has come and by its client (`Stage`).
-/
namespace EditorBridge.Session

/-- The messages that the client of an attempt takes in a step. -/
def Step.sent (step : Step) (k : Nat) : List String :=
  match step.before.client? k, step.after.client? k with
  | some c, some d => c.rpc.taken d.rpc
  | _, _ => []

/-- The messages of callers that are written on the connection of an attempt in a step. -/
def Step.written (step : Step) (k : Nat) : List String :=
  match step.before.client? k, step.after.client? k with
  | some c, some d => c.rpc.written d.rpc
  | _, _ => []

/-- Apart from changes of the connection from outside, what is put on it in a step is the message of
a caller or the reply to a request of the server. -/
def Step.Writes (step : Step) (k : Nat) : Prop :=
  ∀ c d, step.before.client? k = some c → step.after.client? k = some d →
    (∃ change, step.event = .connection k change) ∨
    d.rpc.outbox = c.rpc.outbox ++ (step.written k).map Frame.encode ∨
    step.written k = [] ∧ ∃ text request, c.rpc.inbound? = some text ∧
      Rpc.Inbound.parse text = .ok (.request request) ∧
      d.rpc.outbox = c.rpc.outbox ++ [Frame.encode (answer step.before.settings request).text]

/-- What is said until a session is up. -/
def opening : List String :=
  [Lsp.methods.handshake, Lsp.methods.handshakeDone, Lsp.methods.configuration]

/-- The methods of the messages of a session from the first to the last, with those of the
notifications that are forwarded to it. -/
def lifecycle (forwarded : List String) : List String :=
  opening ++ forwarded ++ [Lsp.methods.shutdown, Lsp.methods.exit]

/-- The first call of an attempt was answered, and by then nothing but the given texts was
written. -/
def Answered (trace : List Step) (k : Nat) (texts : List String) (response : Rpc.Response) : Prop :=
  ∃ earlier step later, trace = earlier ++ step :: later ∧
    step.before.response? step.event k 1 = some response ∧
    earlier.flatMap (·.written k) = texts

/-- The proper answer to the first call of an attempt was received when nothing else was written. -/
def Greeted (trace : List Step) (k : Nat) (messages : List Rpc.Utterance) : Prop :=
  ∃ response handshake, Answered trace k ((messages.take 1).map (·.text)) response ∧
    (Rpc.Outcome.answered response).result Lsp.methods.handshake Lsp.Handshake.read = .ok handshake

open Rpc (Utterance)

/-- What has been said by an attempt that has come so far, with its client. -/
inductive Stage (heard : Rpc.Response → Prop) :
    Option (Phase × Option Lsp.Client) → List Utterance → Prop where
  | absent : Stage heard none []
  | launching : Stage heard (some (.launching, none)) []
  | connected {c : Lsp.Client} (hInitialized : c.initialized = false) (hNext : c.rpc.nextId = 1)
      (hPending : c.rpc.pending = []) (hEnded : ∀ e ∈ c.ended, ∀ r, e.outcome ≠ .answered r) :
      Stage heard (some (.connected, some c)) []
  | handshaking {c : Lsp.Client} {params : Option Json} (hHolds : c.Holds 1)
      (hEnded : ∀ e ∈ c.ended, e.id = 1 → ∀ r, e.outcome = .answered r → heard r) :
      Stage heard (some (.handshaking 1, some c)) [.call 1 Lsp.methods.handshake params]
  | configuring {c : Lsp.Client} {said : List Utterance}
      (hSaid : said.map (·.method) = [Lsp.methods.handshake, Lsp.methods.handshakeDone]) :
      Stage heard (some (.configuring, some c)) said
  | promoting {c : Lsp.Client} {said : List Utterance} (hInitialized : c.initialized = true)
      (hOpen : c.rpc.isOpen = true) (hSaid : said.map (·.method) = opening) :
      Stage heard (some (.promoting, some c)) said
  | running {c : Lsp.Client} {said : List Utterance} {forwarded : List String}
      (hInitialized : c.initialized = true) (hOpen : c.rpc.isOpen = true)
      (hForwarded : forwarded ⊆ forwardedMethods)
      (hSaid : said.map (·.method) = opening ++ forwarded) :
      Stage heard (some (.finished, some c)) said
  | leaving {c : Lsp.Client} {said : List Utterance} {forwarded : List String}
      (hInitialized : c.initialized = false) (hForwarded : forwarded ⊆ forwardedMethods)
      (hSaid : said.map (·.method) = opening ++ forwarded ++ [Lsp.methods.shutdown]) :
      Stage heard (some (.finished, some c)) said
  | closed {client : Option Lsp.Client} {said : List Utterance} {forwarded : List String}
      (hClosed : ∀ c, client = some c → c.rpc.isOpen = false)
      (hForwarded : forwarded ⊆ forwardedMethods)
      (hSaid : said.map (·.method) <+: lifecycle forwarded) :
      Stage heard (some (.finished, client)) said

variable {p : Profile} {s t : State} {event : Event} {k : Nat} {said messages : List Utterance}
  {heard heard' : Rpc.Response → Prop} {trace : List Step}

theorem rel_closed_isOpen {client client' : Option Lsp.Client}
    (h : client.Rel Lsp.Client.Closed client') : ∀ c, client' = some c → c.rpc.isOpen = false := by
  rintro d rfl
  cases h with
  | some hClosed => exact hClosed.isOpen

/-- What was said is always the beginning of a lifecycle. -/
theorem Stage.said_prefix {face : Option (Phase × Option Lsp.Client)}
    (hStage : Stage heard face said) :
    ∃ forwarded, forwarded ⊆ forwardedMethods ∧ said.map (·.method) <+: lifecycle forwarded := by
  have hOpening {methods : List String} (h : methods <+: opening) : methods <+: lifecycle [] :=
    h.trans ⟨_, rfl⟩
  cases hStage with
  | absent | launching | connected => exact ⟨[], List.nil_subset _, List.nil_prefix⟩
  | handshaking => exact ⟨[], List.nil_subset _, hOpening ⟨_, rfl⟩⟩
  | configuring hSaid => exact ⟨[], List.nil_subset _, hSaid ▸ hOpening ⟨_, rfl⟩⟩
  | promoting _ _ hSaid => exact ⟨[], List.nil_subset _, hSaid ▸ hOpening (List.prefix_refl _)⟩
  | running _ _ hForwarded hSaid => exact ⟨_, hForwarded, hSaid ▸ List.prefix_append ..⟩
  | leaving _ hForwarded hSaid =>
    exact ⟨_, hForwarded, hSaid ▸ ⟨[Lsp.methods.exit], by simp [lifecycle]⟩⟩
  | closed _ hForwarded hSaid => exact ⟨_, hForwarded, hSaid⟩

/-- A calm client says nothing, and hears the answer to its first call only when that is open. -/
theorem Stage.calm {phase : Phase} {client client' : Option Lsp.Client}
    (hStage : Stage heard (some (phase, client)) said)
    (hCalm : client.Rel (Lsp.Client.Calm (s.response? event k)) client')
    (hHeard : ∀ r, heard r → heard' r)
    (hNew : said.length = 1 → ∀ r, s.response? event k 1 = some r → heard' r) :
    Stage heard' (some (phase, client')) said := by
  cases hStage with
  | launching => cases hCalm; exact .launching
  | connected hInitialized hNext hPending hEnded =>
    cases hCalm with
    | some hCalm =>
      have hNone := List.subset_nil.mp (hPending ▸ hCalm.pending)
      refine .connected (hCalm.initialized.trans hInitialized) (hCalm.nextId.trans hNext) hNone ?_
      intro e hMem r hAnswered
      rcases hCalm.hears e hMem r hAnswered with hOld | ⟨hOpen, -⟩
      · exact hEnded e hOld r hAnswered
      · simp [hPending] at hOpen
  | handshaking hHolds hEnded =>
    cases hCalm with
    | some hCalm =>
      refine .handshaking (hCalm.holds 1 hHolds) fun e hMem hId r hAnswered => ?_
      rcases hCalm.hears e hMem r hAnswered with hOld | ⟨-, hResponse⟩
      · exact hHeard r (hEnded e hOld hId r hAnswered)
      · exact hNew rfl r (hId ▸ hResponse)
  | configuring hSaid => cases hCalm; exact .configuring hSaid
  | promoting hInitialized hOpen hSaid =>
    cases hCalm with
    | some hCalm =>
      exact .promoting (hCalm.initialized.trans hInitialized) (hCalm.isOpen.trans hOpen) hSaid
  | running hInitialized hOpen hForwarded hSaid =>
    cases hCalm with
    | some hCalm =>
      exact .running (hCalm.initialized.trans hInitialized) (hCalm.isOpen.trans hOpen)
        hForwarded hSaid
  | leaving hInitialized hForwarded hSaid =>
    cases hCalm with
    | some hCalm => exact .leaving (hCalm.initialized.trans hInitialized) hForwarded hSaid
  | closed hClosed hForwarded hSaid =>
    refine .closed ?_ hForwarded hSaid
    cases hCalm with
    | none => exact nofun
    | some hCalm =>
      exact fun d hClient => Option.some.inj hClient ▸ hCalm.isOpen.trans (hClosed _ rfl)

/-- A session that is in its place, or being ended, is one whose task is done. -/
theorem State.Sound.phase_eq {phase : Phase} {client : Option Lsp.Client} (hSound : s.Sound)
    (hHeld : s.Held k ∨ s.Locks k) (hFace : s.face? k = some (phase, client)) :
    phase = .finished := by
  have hPhase := hSound.finished k hHeld
  rw [State.phase?_of_face? hFace] at hPhase
  exact Option.some.inj hPhase

/-- The first call of a client has the number 1, and nobody has heard an answer to it. -/
theorem Stage.asked {c d : Lsp.Client} {id : Nat} {params : Json}
    (hStage : Stage heard (some (.connected, some c)) said)
    (hAsk : c.askHandshake params = (d, .ok id)) :
    Stage heard' (some (.handshaking id, some d))
      (said ++ [.call id Lsp.methods.handshake (some params)]) := by
  cases hStage with
  | connected hInitialized hNext hPending hEnded =>
    obtain ⟨-, hSends, rfl, hHolds⟩ := Lsp.Client.askHandshake_sends hAsk
    rw [hNext] at hHolds ⊢
    refine .handshaking hHolds fun e hMem _ r hAnswered => ?_
    exact absurd hAnswered (hEnded e (hSends.ended ▸ hMem) r)

theorem Stage.configured {c d : Lsp.Client} {settings : Json}
    (hStage : Stage heard (some (.configuring, some c)) said)
    (hTell : c.tellConfiguration settings = (d, .ok ())) :
    Stage heard' (some (.promoting, some d))
      (said ++ [.notice Lsp.methods.configuration (some (Lsp.configurationParams settings))]) := by
  cases hStage with
  | configuring hSaid =>
    obtain ⟨hInitialized, hSends⟩ := Lsp.Client.tellInitialized_sends hTell
    refine .promoting (hSends.initialized.trans hInitialized) hSends.isOpen ?_
    rw [List.map_append, hSaid]
    rfl

/-- Notifications are forwarded only while the session is neither being shut down nor closed. -/
theorem Stage.told {c d : Lsp.Client} {method : String} {params : Json}
    (hStage : Stage heard (some (.finished, some c)) said) (hInitialized : c.initialized = true)
    (hMethod : method ∈ forwardedMethods)
    (hSends : c.Sends d (.notice method (some params))) :
    Stage heard' (some (.finished, some d)) (said ++ [.notice method (some params)]) := by
  cases hStage with
  | running _ hOpen hForwarded hSaid =>
    refine .running (hSends.initialized.trans hInitialized) hSends.isOpen
      (List.append_subset.mpr ⟨hForwarded, List.cons_subset.mpr ⟨hMethod, List.nil_subset _⟩⟩) ?_
    rw [List.map_append, hSaid, List.append_assoc]
    rfl
  | leaving hNot => simp [hInitialized] at hNot
  | closed hClosed => simp [hSends.wasOpen] at hClosed

/-- Only a session that is up is shut down. -/
theorem Stage.shutDown {c d : Lsp.Client} {id : Nat}
    (hStage : Stage heard (some (.finished, some c)) said)
    (hClose : c.beginClose = (d, .awaiting id)) :
    Stage heard' (some (.finished, some d)) (said ++ [.call id Lsp.methods.shutdown none]) := by
  obtain ⟨hInitialized, -, hSends⟩ := Lsp.Client.beginClose_sends hClose
  cases hStage with
  | running _ _ hForwarded hSaid =>
    refine .leaving hSends.initialized hForwarded ?_
    rw [List.map_append, hSaid]
    rfl
  | leaving hNot => simp [hInitialized] at hNot
  | closed hClosed => exact Bool.noConfusion ((hClosed _ rfl).symm.trans hSends.wasOpen)

/-- Only a session that was shut down is told to exit, and nothing is said behind that. -/
theorem Stage.left {c d : Lsp.Client} (hStage : Stage heard (some (.finished, some c)) said)
    (hNot : c.initialized = false) (hLeaves : c.Leaves d) :
    Stage heard' (some (.finished, some d)) (said ++ [.notice Lsp.methods.exit none]) := by
  cases hStage with
  | running hInitialized => simp [hNot] at hInitialized
  | leaving _ hForwarded hSaid =>
    refine .closed (fun d hClient => Option.some.inj hClient ▸ hLeaves.isOpen) hForwarded ?_
    rw [List.map_append, hSaid]
    exact ⟨[], by simp [lifecycle, Rpc.Utterance.method]⟩
  | closed hClosed => simp [hLeaves.wasOpen] at hClosed

/-- A step takes an attempt from one stage to the next, with what it says. -/
theorem Turn.stage (hTurn : Turn p s event t k messages) (hSound : s.Sound)
    (hStage : Stage heard (s.face? k) said) (hHeard : messages = [] → ∀ r, heard r → heard' r)
    (hNew : messages = [] → said.length = 1 → ∀ r, s.response? event k 1 = some r → heard' r) :
    Stage heard' (t.face? k) (said ++ messages) := by
  cases hTurn with
  | absent hBefore hAfter =>
    rw [hBefore] at hStage
    rw [hAfter]
    cases hStage
    exact .absent
  | begun _ hBefore hAfter =>
    rw [hBefore] at hStage
    rw [hAfter]
    cases hStage
    exact .launching
  | calm hBefore hAfter hCalm =>
    rw [hBefore] at hStage
    rw [hAfter, List.append_nil]
    exact hStage.calm hCalm (hHeard rfl) (hNew rfl)
  | connected hBefore hAfter =>
    rw [hBefore] at hStage
    rw [hAfter]
    cases hStage
    exact .connected rfl rfl rfl nofun
  | asked hBefore hAsk hAfter => exact hAfter ▸ (hBefore ▸ hStage).asked hAsk
  | greeted hBefore _ _ hAfter =>
    rw [hBefore] at hStage
    rw [hAfter]
    cases hStage
    exact .configuring rfl
  | configured hBefore hTell hAfter => exact hAfter ▸ (hBefore ▸ hStage).configured hTell
  | placed _ _ hBefore hAfter =>
    rw [hBefore] at hStage
    rw [hAfter, List.append_nil]
    cases hStage with
    | promoting hInitialized hOpen hSaid =>
      exact .running hInitialized hOpen (List.nil_subset _) (hSaid.trans (List.append_nil _).symm)
  | gaveUp _ _ _ _ hAfter hClosed =>
    obtain ⟨forwarded, hForwarded, hSaid⟩ := hStage.said_prefix
    rw [hAfter, List.append_nil]
    exact .closed (rel_closed_isOpen hClosed) hForwarded hSaid
  | closed hHeld hBefore hAfter hClosed =>
    obtain ⟨forwarded, hForwarded, hSaid⟩ := hStage.said_prefix
    obtain rfl := hSound.phase_eq (.inl (hHeld.imp_left And.left)) hBefore
    rw [hAfter, List.append_nil]
    exact .closed (rel_closed_isOpen hClosed) hForwarded hSaid
  | told _ hLocks hBefore hInitialized hMethod hSends hAfter =>
    obtain rfl := hSound.phase_eq (.inr hLocks) hBefore
    exact hAfter ▸ (hBefore ▸ hStage).told hInitialized hMethod hSends
  | shutDown hStop hBefore hClose hAfter =>
    obtain rfl := hSound.phase_eq (.inl (.inr ⟨_, _, hStop, rfl⟩)) hBefore
    exact hAfter ▸ (hBefore ▸ hStage).shutDown hClose
  | left hStop hBefore hLeaves hAfter =>
    obtain rfl := hSound.phase_eq (.inl (.inr ⟨_, _, hStop, rfl⟩)) hBefore
    obtain ⟨c, hClient, hNot, -⟩ := hSound.awaiting _ _ _ hStop
    rw [State.client?_of_face? hBefore, Option.some.injEq] at hClient
    subst hClient
    exact hAfter ▸ (hBefore ▸ hStage).left hNot hLeaves

/-- Behind the handshake at least two messages have been said, unless the client is closed. -/
theorem Stage.one_lt_length {phase : Phase} {c : Lsp.Client}
    (hStage : Stage heard (some (phase, some c)) said) (hOpen : c.rpc.isOpen = true)
    (hPhase : phase = .configuring ∨ phase = .finished) : 1 < said.length := by
  have hLength : said.length = (said.map (·.method)).length := (List.length_map ..).symm
  cases hStage with
  | connected | handshaking | promoting => rcases hPhase with h | h <;> cases h
  | configuring hSaid => simp [hLength, hSaid]
  | running _ _ _ hSaid => simp [hLength, hSaid, opening]
  | leaving _ _ hSaid => simp [hLength, hSaid, opening]
  | closed hClosed => simp [hOpen] at hClosed

/-- The second message is said when the proper answer to the first one has been heard. -/
theorem Turn.greets (hTurn : Turn p s event t k messages) (hSound : s.Sound)
    (hStage : Stage heard (s.face? k) said) (h : 1 < (said ++ messages).length) :
    1 < said.length ∨ said.length = 1 ∧ ∃ response handshake, heard response ∧
      (Rpc.Outcome.answered response).result Lsp.methods.handshake Lsp.Handshake.read =
        .ok handshake := by
  cases hTurn with
  | absent | begun | calm | connected | placed | gaveUp | closed => exact .inl (by simpa using h)
  | asked hBefore =>
    rw [hBefore] at hStage
    cases hStage
    simp at h
  | @greeted _ _ _ _ outcome handshake hBefore hTake hFinish =>
    rw [hBefore] at hStage
    cases hStage with
    | handshaking hHolds hEnded =>
      obtain ⟨-, -, -, hKept⟩ := Lsp.Client.takeEnd_unsaid hTake
      obtain ⟨hResult, -⟩ := Lsp.Client.finishHandshake_sends hFinish
      refine .inr ⟨rfl, ?_⟩
      cases outcome with
      | answered response => exact ⟨response, handshake, hEnded _ hKept rfl _ rfl, hResult⟩
      | timedOut | cancelled => cases hResult
  | configured hBefore hTell =>
    obtain ⟨-, hSends⟩ := Lsp.Client.tellInitialized_sends hTell
    exact .inl ((hBefore ▸ hStage).one_lt_length hSends.wasOpen (.inl rfl))
  | told _ hLocks hBefore _ _ hSends =>
    exact .inl ((hBefore ▸ hStage).one_lt_length hSends.wasOpen
      (.inr (hSound.phase_eq (.inr hLocks) hBefore)))
  | shutDown hStop hBefore hClose =>
    obtain ⟨-, -, hSends⟩ := Lsp.Client.beginClose_sends hClose
    exact .inl ((hBefore ▸ hStage).one_lt_length hSends.wasOpen
      (.inr (hSound.phase_eq (.inl (.inr ⟨_, _, hStop, rfl⟩)) hBefore)))
  | left hStop hBefore hLeaves =>
    exact .inl ((hBefore ▸ hStage).one_lt_length hLeaves.wasOpen
      (.inr (hSound.phase_eq (.inl (.inr ⟨_, _, hStop, rfl⟩)) hBefore)))

/-- A client takes what is said, and puts nothing on the connection unless its loop takes a step. -/
theorem Turn.flow (hTurn : Turn p s event t k messages) {c : Lsp.Client}
    (hClient : s.client? k = some c) (hPhase : s.phase? k ≠ some .launching) :
    ∃ d, t.client? k = some d ∧ c.rpc.Flow d.rpc messages ∧
      (event.touches k ∨ d.rpc.outbox = c.rpc.outbox) := by
  obtain ⟨phase, hFace⟩ := State.face?_of_client? hClient
  have hSame {phase' : Phase} {client : Option Lsp.Client} (h : s.face? k = some (phase', client)) :
      client = some c := by
    rw [hFace] at h
    cases h
    rfl
  cases hTurn with
  | absent hBefore | begun _ hBefore => simp [hFace] at hBefore
  | connected hBefore => exact absurd (State.phase?_of_face? hBefore) hPhase
  | calm hBefore hAfter hCalm hOutbox =>
    obtain rfl := hSame hBefore
    cases hCalm with
    | some hCalm =>
      refine ⟨_, State.client?_of_face? hAfter, hCalm.flow, hOutbox.imp_right fun h => ?_⟩
      cases h with
      | some h => exact h
  | asked hBefore hAsk hAfter =>
    obtain rfl := Option.some.inj (hSame hBefore)
    obtain ⟨-, hSends, -⟩ := Lsp.Client.askHandshake_sends hAsk
    exact ⟨_, State.client?_of_face? hAfter, hSends.flow, .inr hSends.outbox⟩
  | greeted hBefore hTake hFinish hAfter =>
    obtain rfl := Option.some.inj (hSame hBefore)
    obtain ⟨-, hTaken, -⟩ := Lsp.Client.takeEnd_unsaid hTake
    obtain ⟨-, -, f, hSends, hRpc, -⟩ := Lsp.Client.finishHandshake_sends hFinish
    have hFlow := hSends.flow
    have hOutbox := hSends.outbox
    rw [hTaken, ← hRpc] at hFlow hOutbox
    exact ⟨_, State.client?_of_face? hAfter, hFlow, .inr hOutbox⟩
  | configured hBefore hTell hAfter =>
    obtain rfl := Option.some.inj (hSame hBefore)
    obtain ⟨-, hSends⟩ := Lsp.Client.tellInitialized_sends hTell
    exact ⟨_, State.client?_of_face? hAfter, hSends.flow, .inr hSends.outbox⟩
  | placed _ _ hBefore hAfter =>
    obtain rfl := hSame hBefore
    exact ⟨c, State.client?_of_face? hAfter, .refl _, .inr rfl⟩
  | gaveUp _ _ _ hBefore hAfter hClosed | closed _ hBefore hAfter hClosed =>
    obtain rfl := hSame hBefore
    cases hClosed with
    | some hClosed =>
      exact ⟨_, State.client?_of_face? hAfter, hClosed.flow, .inr hClosed.outbox⟩
  | told _ _ hBefore _ _ hSends hAfter =>
    obtain rfl := Option.some.inj (hSame hBefore)
    exact ⟨_, State.client?_of_face? hAfter, hSends.flow, .inr hSends.outbox⟩
  | shutDown _ hBefore hClose hAfter =>
    obtain rfl := Option.some.inj (hSame hBefore)
    obtain ⟨-, -, hSends⟩ := Lsp.Client.beginClose_sends hClose
    exact ⟨_, State.client?_of_face? hAfter, hSends.flow, .inr hSends.outbox⟩
  | left _ hBefore hLeaves hAfter =>
    obtain rfl := Option.some.inj (hSame hBefore)
    exact ⟨_, State.client?_of_face? hAfter, hLeaves.flow, .inr hLeaves.outbox⟩

/-- Without a client nothing is said; one that comes up has nothing to write. -/
theorem Turn.silent (hTurn : Turn p s event t k messages) (hClient : s.client? k = none) :
    messages = [] ∧ ∀ d, t.client? k = some d →
      s.face? k = some (.launching, none) ∧ d.rpc.accepted = [] := by
  have hSame {phase' : Phase} {client : Option Lsp.Client} (h : s.face? k = some (phase', client)) :
      client = none := (State.client?_of_face? h).symm.trans hClient
  have hNone {phase : Phase} (hAfter : t.face? k = some (phase, none)) {d : Lsp.Client}
      (hNew : t.client? k = some d) : False := by
    rw [State.client?_of_face? hAfter] at hNew
    cases hNew
  cases hTurn with
  | absent _ hAfter =>
    refine ⟨rfl, fun d hNew => ?_⟩
    rw [State.client?_eq, hAfter] at hNew
    cases hNew
  | begun _ _ hAfter => exact ⟨rfl, fun d hNew => (hNone hAfter hNew).elim⟩
  | calm hBefore hAfter hRel | gaveUp _ _ _ hBefore hAfter hRel | closed _ hBefore hAfter hRel =>
    obtain rfl := hSame hBefore
    cases hRel
    exact ⟨rfl, fun d hNew => (hNone hAfter hNew).elim⟩
  | placed _ _ hBefore hAfter =>
    obtain rfl := hSame hBefore
    exact ⟨rfl, fun d hNew => (hNone hAfter hNew).elim⟩
  | connected hBefore hAfter =>
    obtain rfl := hSame hBefore
    refine ⟨rfl, fun d hNew => ⟨hBefore, ?_⟩⟩
    rw [State.client?_of_face? hAfter] at hNew
    exact Option.some.inj hNew ▸ rfl
  | asked hBefore | greeted hBefore | configured hBefore | told _ _ hBefore | shutDown _ hBefore
    | left _ hBefore => cases hSame hBefore

/-- What a step of the loop puts on the connection. -/
theorem State.loop_outbox {c d : Lsp.Client} (hStep : s.loopStep? k = some t)
    (hClient : s.client? k = some c) (hClient' : t.client? k = some d) :
    d.rpc.outbox = c.rpc.outbox ++ (c.rpc.written d.rpc).map Frame.encode ∨
      c.rpc.written d.rpc = [] ∧ ∃ text request, c.rpc.inbound? = some text ∧
        Rpc.Inbound.parse text = .ok (.request request) ∧
        d.rpc.outbox = c.rpc.outbox ++ [Frame.encode (answer s.settings request).text] := by
  obtain ⟨phase, hFace⟩ := State.face?_of_client? hClient
  obtain ⟨c', hClient'', hLoop⟩ := Option.bind_eq_some_iff.mp hStep
  obtain rfl := Option.some.inj (hClient''.symm.trans hClient)
  obtain ⟨⟨e, notifications⟩, hNext, rfl⟩ := Option.map_eq_some_iff.mp hLoop
  have hAfter :
      ({ s.withClient k e with output := notifications.foldl route s.output } : State).face? k =
        some (phase, some e) := by
    refine (face?_withClient s k k e).trans ?_
    rw [if_pos rfl, hFace]
    rfl
  rw [State.client?_of_face? hAfter] at hClient'
  obtain rfl := Option.some.inj hClient'
  obtain ⟨⟨rpc, effects⟩, hMove, hFollow⟩ := Option.map_eq_some_iff.mp hNext
  obtain rfl : (c'.follow rpc effects).1 = e := congrArg Prod.fst hFollow
  exact (Rpc.Client.loop_move hMove).1.outbox

/-- What has become of an attempt in a run: what was said and written on its connection. -/
structure Course (trace : List Step) (s : State) (k : Nat) (said : List Utterance) : Prop where
  sent : trace.flatMap (·.sent k) = said.map (·.text)
  /-- What was said is what was written and what waits, while the loop runs. -/
  tally : ∃ rest, said.map (·.text) = trace.flatMap (·.written k) ++ rest ∧
    ∀ c, s.client? k = some c → c.rpc.phase = .running → rest = c.rpc.accepted
  stage : Stage (Answered trace k ((said.take 1).map (·.text))) (s.face? k) said
  greeted : 1 < said.length → Greeted trace k said
  writes : ∀ step ∈ trace, step.Writes k

theorem Answered.append {texts : List String} {response : Rpc.Response}
    (h : Answered trace k texts response) (step : Step) :
    Answered (trace ++ [step]) k texts response := by
  obtain ⟨earlier, heard, later, rfl, hResponse, hWritten⟩ := h
  exact ⟨earlier, heard, later ++ [step], by simp, hResponse, hWritten⟩

/-- When a response is received, everything that was said is written. -/
theorem Course.written_of_response {response : Rpc.Response} (hCourse : Course trace s k said)
    (h : s.response? event k 1 = some response) :
    trace.flatMap (·.written k) = said.map (·.text) := by
  obtain ⟨rest, hAll, hRest⟩ := hCourse.tally
  unfold State.response? at h
  split at h
  · split at h
    · obtain ⟨c, hClient, hInbound⟩ := Option.bind_eq_some_iff.mp h
      obtain ⟨text, hText, -⟩ := Option.bind_eq_some_iff.mp hInbound
      unfold Rpc.Client.inbound? at hText
      split at hText
      · rename_i hReady
        rw [hAll, hRest c hClient hReady.1, hReady.2.1, List.append_nil]
      · cases hText
    · cases h
  · cases h

/-- An attempt with a client has been launched. -/
theorem Stage.not_launching {c : Lsp.Client} (hStage : Stage heard (s.face? k) said)
    (hClient : s.client? k = some c) : s.phase? k ≠ some .launching := by
  intro hPhase
  obtain ⟨phase, hFace⟩ := State.face?_of_client? hClient
  rw [State.phase?_of_face? hFace] at hPhase
  obtain rfl := Option.some.inj hPhase
  rw [hFace] at hStage
  cases hStage

/-- What a step adds to what was said and written. -/
theorem Course.tally_step (hCourse : Course trace s k said) (hTurn : Turn p s event t k messages) :
    (⟨s, event, t⟩ : Step).sent k = messages.map (·.text) ∧
    ∃ rest, (said ++ messages).map (·.text) =
        trace.flatMap (·.written k) ++ (⟨s, event, t⟩ : Step).written k ++ rest ∧
      ∀ d, t.client? k = some d → d.rpc.phase = .running → rest = d.rpc.accepted := by
  obtain ⟨rest, hAll, hRest⟩ := hCourse.tally
  cases hClient : s.client? k with
  | none =>
    obtain ⟨rfl, hFresh⟩ := hTurn.silent hClient
    refine ⟨by simp [Step.sent, hClient], rest, by simp [Step.written, hClient, hAll], ?_⟩
    intro d hNew _
    obtain ⟨hFace, hEmpty⟩ := hFresh d hNew
    have hStage := hCourse.stage
    rw [hFace] at hStage
    cases hStage
    rw [hEmpty]
    exact (List.append_eq_nil_iff.mp hAll.symm).2
  | some c =>
    obtain ⟨d, hClient', hFlow, -⟩ := hTurn.flow hClient (hCourse.stage.not_launching hClient)
    obtain ⟨rest', hAll', hRest'⟩ := hFlow.tally ⟨rest, hAll, hRest c hClient⟩
    refine ⟨by simp [Step.sent, hClient, hClient', hFlow.taken_eq], rest', ?_, fun e hNew => ?_⟩
    · rw [List.map_append, ← hFlow.taken_eq, hAll']
      simp [Step.written, hClient, hClient']
    · obtain rfl := Option.some.inj (hClient'.symm.trans hNew)
      exact hRest'

/-- A step of a run writes messages of callers and replies, and nothing else. -/
theorem Course.writes_step (hCourse : Course trace s k said) (hStep : s.next? p event = some t) :
    (⟨s, event, t⟩ : Step).Writes k := by
  intro c d hClient hClient'
  dsimp only at hClient hClient'
  have hWritten : (⟨s, event, t⟩ : Step).written k = c.rpc.written d.rpc := by
    simp [Step.written, hClient, hClient']
  rw [hWritten]
  obtain ⟨messages, hTurn⟩ := State.next?_turn hStep k
  obtain ⟨e, hSame, -, hOutbox⟩ := hTurn.flow hClient (hCourse.stage.not_launching hClient)
  obtain rfl := Option.some.inj (hSame.symm.trans hClient')
  rcases hOutbox with hTouches | hQuiet
  · cases event with
    | loop j =>
      obtain rfl : j = k := hTouches
      exact .inr (State.loop_outbox hStep hClient hClient')
    | connection j change =>
      obtain rfl : j = k := hTouches
      exact .inl ⟨change, rfl⟩
    | _ => cases hTouches
  · exact .inr (.inl (by simp [Rpc.Client.written_of_outbox_eq hQuiet, hQuiet]))

theorem Course.step (hCourse : Course trace s k said) (hSound : s.Sound)
    (hStep : s.next? p event = some t) (hTurn : Turn p s event t k messages) :
    Course (trace ++ [⟨s, event, t⟩]) t k (said ++ messages) := by
  obtain ⟨hSent, rest, hAll, hRest⟩ := hCourse.tally_step hTurn
  refine ⟨?_, ⟨rest, by simpa using hAll, hRest⟩, ?_, fun hMore => ?_, ?_⟩
  · simp [hCourse.sent, hSent]
  · refine hTurn.stage hSound hCourse.stage ?_ ?_
    · rintro rfl r hHeard
      rw [List.append_nil]
      exact hHeard.append _
    · rintro rfl hOne r hResponse
      refine ⟨trace, _, [], rfl, hResponse, ?_⟩
      rw [hCourse.written_of_response hResponse, List.append_nil, List.take_of_length_le (by omega)]
  · rcases hTurn.greets hSound hCourse.stage hMore with
      hBefore | ⟨hOne, response, handshake, hHeard, hOk⟩
    · obtain ⟨response, handshake, hHeard, hOk⟩ := hCourse.greeted hBefore
      refine ⟨response, handshake, ?_, hOk⟩
      rw [List.take_append_of_le_length (by omega)]
      exact hHeard.append _
    · refine ⟨response, handshake, ?_, hOk⟩
      rw [List.take_append_of_le_length (by omega)]
      exact hHeard.append _
  · intro step hMem
    rcases List.mem_append.mp hMem with hOld | hNew
    · exact hCourse.writes step hOld
    · rw [List.mem_singleton.mp hNew]
      exact hCourse.writes_step hStep

theorem Run.course (hRun : Run p (.create p) trace s) (k : Nat) :
    ∃ said, Course trace s k said := by
  induction hRun with
  | start =>
    have hFace : (State.create p).face? k = none := by simp [State.face?, State.create]
    refine ⟨[], rfl, ⟨[], rfl, fun c hClient => ?_⟩, by rw [hFace]; exact .absent, by simp, by simp⟩
    rw [State.client?_eq, hFace] at hClient
    cases hClient
  | step prior last ih =>
    obtain ⟨said, hCourse⟩ := ih
    obtain ⟨messages, hTurn⟩ := State.next?_turn last k
    exact ⟨said ++ messages, hCourse.step prior.sound last hTurn⟩

/-- In every run, the messages that are written on the connection of an attempt, replies to requests
of the server left out, are the beginning of a lifecycle: the first request, the two notifications
behind it, notifications that are forwarded, the shutdown request, and the notification of the exit.
When more than the first request is written, its proper answer was received at a moment when only
that request was. What a step puts on the connection is one of these messages, or a reply; and what
is written of a message is read as an object with its method and, for a request, its number. -/
theorem messages_follow_lifecycle (hRun : Run p (.create p) trace s) (k : Nat) :
    ∃ (messages : List Utterance) (forwarded : List String),
      trace.flatMap (·.written k) = messages.map (·.text) ∧
      forwarded ⊆ forwardedMethods ∧
      messages.map (·.method) <+: lifecycle forwarded ∧
      (1 < messages.length → Greeted trace k messages) ∧
      (∀ step ∈ trace, step.Writes k) ∧
      ∀ m ∈ messages, m.Writable → Json.IsRecord m.text m.entries := by
  obtain ⟨said, hCourse⟩ := hRun.course k
  obtain ⟨rest, hAll, -⟩ := hCourse.tally
  obtain ⟨forwarded, hForwarded, hSaid⟩ := hCourse.stage.said_prefix
  have hLength : (trace.flatMap (·.written k)).length ≤ said.length := by
    have hSum := congrArg List.length hAll
    rw [List.length_map, List.length_append] at hSum
    omega
  refine ⟨said.take (trace.flatMap (·.written k)).length, forwarded, ?_, hForwarded, ?_,
    fun hMore => ?_, hCourse.writes, fun m _ => Utterance.isRecord_text⟩
  · rw [List.map_take, hAll, List.take_left]
  · rw [List.map_take]
    exact (List.take_prefix ..).trans hSaid
  · rw [List.length_take] at hMore
    obtain ⟨response, handshake, hHeard, hOk⟩ := hCourse.greeted (by omega)
    refine ⟨response, handshake, ?_, hOk⟩
    rw [List.take_take, Nat.min_eq_left (by omega)]
    exact hHeard

/-- The answer of a server to a call. -/
def answerCall (id : Nat) (result : String) : Stream.Transport → Stream.Transport :=
  (·.deliver (Utf8.encode (Frame.encode
    ("\x7b\"jsonrpc\":\"2.0\",\"id\":" ++ toString id ++
      ",\"result\":" ++ result ++ "\x7d")).toList))

/-- A session that comes up, is told of a document and is stopped, with a server that answers both
requests. -/
def wholeLife : Option (List Step × State) :=
  (State.create plainProfile).follow? plainProfile
    [.start (.ofString "/server") none, .launched 0 (.ok (.fresh, none)), .task 0, .loop 0,
      .connection 0 (answerCall 1 "\x7b\"capabilities\":\x7b\x7d\x7d"), .loop 0, .loop 0,
      .task 0, .task 0, .task 0, .loop 0, .loop 0,
      .forward (.opened (.ofString "/a.java") "java" 1 "x"), .acquire 0, .deliver 0, .takeResult 0,
      .loop 0, .stop, .stopStep, .stopStep, .stopStep, .loop 0, .connection 0 (answerCall 2 "null"),
      .loop 0, .loop 0, .stopStep, .loop 0, .loop 0, .loop 0, .stopStep]

theorem wholeLife_shown :
    wholeLife.map (fun (trace, s) => ((trace.flatMap fun step : Step => step.sent 0).length,
      (s.client? 0).map (·.rpc.outbox.length), s.status)) = some (6, some 6, .stopped) := by
  decide +kernel

theorem wholeLife_follows_lifecycle :
    ∃ trace s, wholeLife = some (trace, s) ∧ (trace.flatMap (·.sent 0)).length = 6 ∧
      ∃ (messages : List Utterance) (forwarded : List String),
        trace.flatMap (·.written 0) = messages.map (·.text) ∧
        forwarded ⊆ forwardedMethods ∧
        messages.map (·.method) <+: lifecycle forwarded ∧
        (1 < messages.length → Greeted trace 0 messages) ∧
        (∀ step ∈ trace, step.Writes 0) ∧
        ∀ m ∈ messages, m.Writable → Json.IsRecord m.text m.entries := by
  obtain ⟨⟨trace, s⟩, hEval, hShown⟩ := Option.map_eq_some_iff.mp wholeLife_shown
  simp only [Prod.mk.injEq] at hShown
  exact ⟨trace, s, hEval, hShown.1, messages_follow_lifecycle (State.run_of_follow? hEval) 0⟩

end EditorBridge.Session
