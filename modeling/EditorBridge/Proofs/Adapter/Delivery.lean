import EditorBridge.Proofs.Adapter.Correlation
import EditorBridge.Proofs.Adapter.Events
/-!
Events beside requests. Whatever a client and its callers do, they do with any other events waiting
and with nobody asking for them: answers come, replies are written and waits return in the same way.
When a wait returns, all events that were received before its answer are accounted for, and what
waits can be taken at any time, also when the loop has come to its end.
-/
namespace EditorBridge.Adapter

/-- Does somebody ask for an event? -/
def Move.asks : Move → Bool
  | .takeEvent | .missEvent => true
  | _ => false

namespace Client

variable {c d : Client} {entries : List Entry}

/-- The client with other events waiting. -/
def withEvents (c : Client) (events : List Event) : Client := { c with events }

variable (events : List Event)

theorem withEvents_poll? (c : Client) (seq : Nat) : (c.withEvents events).poll? seq =
    (c.poll? seq).map fun (d, result) => (d.withEvents events, result) := by
  unfold poll? withEvents
  dsimp only
  split
  · rfl
  · split <;> rfl

theorem withEvents_resolve (c : Client) (r : Response) :
    (c.withEvents events).resolve r = (c.resolve r).withEvents events := by
  unfold resolve withEvents
  dsimp only
  split
  · rfl
  · split <;> rfl

theorem withEvents_refuse (c : Client) (r : Request) :
    (c.withEvents events).refuse r = (c.refuse r).withEvents events := by
  unfold refuse withEvents
  dsimp only
  split <;> rfl

theorem withEvents_write (c : Client) (r : Request) :
    (c.withEvents events).write r = (c.write r).withEvents events := by
  unfold write withEvents
  dsimp only
  split <;> rfl

/-- Only the queue itself depends on what is in it when the loop acts on a message. -/
theorem withEvents_handle (c : Client) (m : String) :
    ∃ events', (c.withEvents events).handle m = (c.handle m).withEvents events' := by
  unfold handle
  split
  · exact ⟨events, rfl⟩
  · exact ⟨events, withEvents_resolve events c _⟩
  · rename_i e hParse
    exact ⟨((c.withEvents events).queueEvent e).events, by unfold queueEvent; split <;> split <;> rfl⟩
  · exact ⟨events, withEvents_refuse events c _⟩

theorem withEvents_receiveStep? (c : Client) : ∃ events',
    (c.withEvents events).receiveStep? = c.receiveStep?.map (·.withEvents events') := by
  unfold receiveStep?
  have hConnection : (c.withEvents events).connection = c.connection := rfl
  rw [hConnection]
  split
  · rename_i m connection hReceive
    obtain ⟨events', hHandle⟩ := withEvents_handle events { c with connection } m
    exact ⟨events', congrArg some hHandle⟩
  · exact ⟨events, rfl⟩
  · exact ⟨events, rfl⟩
  · exact ⟨events, rfl⟩

theorem withEvents_loopStep? (c : Client) : ∃ events',
    (c.withEvents events).loopStep? = c.loopStep?.map (·.withEvents events') := by
  have hPhase : (c.withEvents events).phase = c.phase := rfl
  have hAccepted : (c.withEvents events).accepted = c.accepted := rfl
  have hOpen : (c.withEvents events).isOpen = c.isOpen := rfl
  unfold loopStep?
  rw [hPhase, hAccepted, hOpen]
  split
  · exact ⟨events, rfl⟩
  · exact ⟨events, rfl⟩
  · split
    · exact ⟨events, congrArg some (withEvents_write events { c with accepted := _ } _)⟩
    · split
      · exact withEvents_receiveStep? events c
      · exact ⟨events, rfl⟩

theorem withEvents_next?_loop (h : c.next? .loop = some (d, entries)) :
    ∃ events', (c.withEvents events).next? .loop = some (d.withEvents events', entries) := by
  obtain ⟨events', hStep⟩ := withEvents_loopStep? events c
  obtain ⟨e, hLoop, hEq⟩ := Option.map_eq_some_iff.mp h
  cases hEq
  refine ⟨events', ?_⟩
  rw [next?, hStep, hLoop]
  rfl

end Client

namespace Exchange

variable {x y : Exchange} {trace entries : List Entry} {seq : Nat} {s : Caller} {d : Client}

/-- Callers of requests leave the events alone. -/
theorem Turn.queueing (h : Turn x seq s d entries) :
    Queueing x.client.events false entries d.events := by
  cases h with
  | sent | turnedAway | withdrew | waited | returned | expired | timedOut | dropped =>
    exact .quiet (by simp [Entry.event?]) (by simp [Entry.asks])

theorem aside?_queueing {action : Client.Action} (h : x.aside? action = some (y, entries)) :
    Queueing x.client.events action.asks entries y.client.events := by
  obtain ⟨⟨d, entries'⟩, hNext, hEq⟩ := Option.map_eq_some_iff.mp h
  cases hEq
  exact (Client.turn hNext).queueing

theorem proceed?_queueing (h : x.proceed? = some (y, entries)) :
    Queueing x.client.events false entries y.client.events := by
  unfold proceed? at h
  split at h
  · have hWrap : x.wrapUp = (y, entries) := Option.some.inj h
    unfold wrapUp at hWrap
    split at hWrap
    · cases hWrap
      exact .nothing
    · cases hWrap
      exact .quiet (by simp [Entry.event?]) (by simp [Entry.asks])
  · obtain ⟨⟨z, said⟩, hAside, hEq⟩ := Option.map_eq_some_iff.mp h
    obtain ⟨⟨d, said'⟩, hNext, hSame⟩ := Option.map_eq_some_iff.mp hAside
    cases hEq
    obtain ⟨rfl, rfl⟩ := Prod.mk.inj hSame
    have hTurn := Client.loop_turn hNext
    by_cases hLeaves : d.phase = .closing
    · -- A loop that leaves tells nothing but that.
      have hQuiet : said' = [] := by
        rcases hTurn.phases with ⟨-, hStays⟩ | ⟨-, -, hQuiet⟩ | ⟨-, hEnds⟩
        · exact absurd (hStays.symm.trans hLeaves) (by decide)
        · exact hQuiet
        · exact absurd (hEnds.symm.trans hLeaves) (by decide)
      subst hQuiet
      have hSame : d.events = x.client.events := hTurn.queueing.eq_of_nil
      simp only [hLeaves, if_true, hSame]
      exact .quiet (by simp [Entry.event?]) (by simp [Entry.asks])
    · simp only [hLeaves, if_false, List.append_nil]
      exact hTurn.queueing

theorem loop?_queueing (h : x.loop? = some (y, entries)) :
    Queueing x.client.events false entries y.client.events := by
  cases hHeld : x.held with
  | some m =>
    obtain ⟨d, said, hHandled, hLoop⟩ := loop?_acted hHeld
    cases h.symm.trans hLoop
    exact hHandled.queueing _
  | none =>
    cases hInbound : x.client.inbound? with
    | some m =>
      simp only [loop?, hHeld, hInbound] at h
      cases h
      exact .nothing
    | none =>
      simp only [loop?, hHeld, hInbound] at h
      exact proceed?_queueing h

theorem abort_queueing (x : Exchange) :
    Queueing x.client.events false x.abort.2 x.abort.1.client.events := by
  unfold abort
  split
  · exact .nothing
  · exact .quiet (by simp [Entry.event?]) (by simp [Entry.asks])

theorem next?_queueing {move : Move} (h : x.next? move = some (y, entries)) :
    Queueing x.client.events move.asks entries y.client.events := by
  cases move with
  | loop => exact loop?_queueing h
  | takeEvent | missEvent | dropSender | transport => exact aside?_queueing h
  | abort =>
    obtain ⟨rfl, rfl⟩ := Prod.mk.inj (Option.some.inj h)
    exact x.abort_queueing
  | begin command arguments =>
    cases h
    exact .nothing
  | advance seq =>
    obtain ⟨s, d, hTurn, rfl⟩ := advance?_turn h
    exact hTurn.queueing
  | wait seq limit =>
    obtain ⟨z, hWait, hEq⟩ := Option.map_eq_some_iff.mp h
    cases hEq
    unfold wait? at hWait
    split at hWait <;> cases hWait
    exact .nothing
  | expire seq =>
    have hExpire : x.expire? seq = some (y, entries) := h
    unfold expire? at hExpire
    split at hExpire <;> cases hExpire
    exact .quiet (by simp [Entry.event?]) (by simp [Entry.asks])
  | drop seq =>
    obtain ⟨z, hDrop, hEq⟩ := Option.map_eq_some_iff.mp h
    cases hEq
    unfold drop? at hDrop
    split at hDrop <;> cases hDrop <;> exact .nothing

theorem Run.accounted {transport : Stream.Transport} (hRun : Run (create transport) trace x) :
    ∃ kept, Accounted trace x.client.events kept := by
  induction hRun with
  | start => exact ⟨[], .nil⟩
  | step prior last ih =>
    obtain ⟨kept, hAccount⟩ := ih
    exact hAccount.queueing (next?_queueing last)

def withEvents (x : Exchange) (events : List Event) : Exchange :=
  { x with client := x.client.withEvents events }

/-- What comes of a step, with other events waiting. -/
def stepWith (events : List Event) (step : Exchange × List Entry) : Exchange × List Entry :=
  (step.1.withEvents events, step.2)

variable (events : List Event)

theorem withEvents_advance? (x : Exchange) (seq : Nat) :
    (x.withEvents events).advance? seq = (x.advance? seq).map (stepWith events) := by
  unfold advance?
  have hCaller : (x.withEvents events).caller = x.caller := rfl
  rw [hCaller]
  split
  · have hTakes : (x.withEvents events).client.takesRequests = x.client.takesRequests := rfl
    rw [hTakes]
    split <;> rfl
  · rfl
  · have hPoll := Client.withEvents_poll? events x.client seq
    have hClient : (x.withEvents events).client = x.client.withEvents events := rfl
    rw [hClient, hPoll, Option.map_map, Option.map_map]
    rfl
  · rfl
  · rfl

theorem withEvents_expire? (x : Exchange) (seq : Nat) :
    (x.withEvents events).expire? seq = (x.expire? seq).map (stepWith events) := by
  have hCaller : (x.withEvents events).caller = x.caller := rfl
  have hPoll : (x.withEvents events).client.poll? seq =
      (x.client.poll? seq).map fun (d, result) => (d.withEvents events, result) :=
    Client.withEvents_poll? events x.client seq
  unfold expire?
  rw [hCaller, hPoll]
  cases x.caller seq <;> cases x.client.poll? seq <;> rfl

theorem withEvents_wait? (x : Exchange) (seq : Nat) (limit : Duration) :
    (x.withEvents events).wait? seq limit = (x.wait? seq limit).map (·.withEvents events) := by
  unfold wait?
  have hCaller : (x.withEvents events).caller = x.caller := rfl
  rw [hCaller]
  split <;> rfl

theorem withEvents_drop? (x : Exchange) (seq : Nat) :
    (x.withEvents events).drop? seq = (x.drop? seq).map (·.withEvents events) := by
  unfold drop?
  have hCaller : (x.withEvents events).caller = x.caller := rfl
  rw [hCaller]
  split <;> rfl

theorem withEvents_proceed? (h : x.proceed? = some (y, entries)) :
    ∃ events', (x.withEvents events).proceed? = some (y.withEvents events', entries) := by
  have hPhase : (x.withEvents events).client.phase = x.client.phase := rfl
  unfold proceed? at h ⊢
  rw [hPhase]
  split at h
  · rename_i hClosing
    have hWrap : x.wrapUp = (y, entries) := Option.some.inj h
    have hEmptied : (x.withEvents events).emptied = x.emptied := rfl
    refine ⟨events, ?_⟩
    rw [if_pos hClosing]
    unfold wrapUp at hWrap ⊢
    rw [hEmptied]
    split at hWrap <;> cases hWrap <;> simp only [*] <;> rfl
  · rename_i hClosing
    obtain ⟨⟨z, said⟩, hAside, hEq⟩ := Option.map_eq_some_iff.mp h
    obtain ⟨⟨d, said'⟩, hStep, hSame⟩ := Option.map_eq_some_iff.mp hAside
    cases hSame
    cases hEq
    obtain ⟨events', hLoop⟩ := Client.withEvents_next?_loop events hStep
    have hClient : (x.withEvents events).client = x.client.withEvents events := rfl
    rw [if_neg hClosing, aside?, hClient, hLoop]
    exact ⟨events', rfl⟩

/-- The loop acts on the same message in the same way. -/
theorem withEvents_loop? (h : x.loop? = some (y, entries)) :
    ∃ events', (x.withEvents events).loop? = some (y.withEvents events', entries) := by
  have hHeld : (x.withEvents events).held = x.held := rfl
  have hInbound : (x.withEvents events).client.inbound? = x.client.inbound? := rfl
  have hClient : (x.withEvents events).client = x.client.withEvents events := rfl
  unfold loop? at h ⊢
  rw [hHeld, hInbound]
  cases hMessage : x.held with
  | some m =>
    simp only [hMessage] at h ⊢
    cases h
    obtain ⟨events', hHandle⟩ := Client.withEvents_handle events x.client m
    rw [hClient, hHandle]
    exact ⟨events', rfl⟩
  | none =>
    cases hNext : x.client.inbound? with
    | some m =>
      simp only [hMessage, hNext] at h ⊢
      cases h
      exact ⟨events, rfl⟩
    | none =>
      simp only [hMessage, hNext] at h ⊢
      exact withEvents_proceed? events h

/-- Whatever is done besides asking for events is done with any other events waiting. -/
theorem withEvents_next? {move : Move} (hOther : move.asks = false)
    (h : x.next? move = some (y, entries)) :
    ∃ events', (x.withEvents events).next? move = some (y.withEvents events', entries) := by
  cases move with
  | takeEvent | missEvent => cases hOther
  | loop => exact withEvents_loop? events h
  | begin | dropSender | abort | transport =>
    cases h
    exact ⟨events, rfl⟩
  | advance seq =>
    have hAdvance : x.advance? seq = some (y, entries) := h
    exact ⟨events, by rw [next?, withEvents_advance?, hAdvance]; rfl⟩
  | expire seq =>
    have hExpire : x.expire? seq = some (y, entries) := h
    exact ⟨events, by rw [next?, withEvents_expire?, hExpire]; rfl⟩
  | wait seq limit =>
    obtain ⟨z, hWait, hEq⟩ := Option.map_eq_some_iff.mp h
    cases hEq
    exact ⟨events, by rw [next?, withEvents_wait?, hWait]; rfl⟩
  | drop seq =>
    obtain ⟨z, hDrop, hEq⟩ := Option.map_eq_some_iff.mp h
    cases hEq
    exact ⟨events, by rw [next?, withEvents_drop?, hDrop]; rfl⟩

/-- Who asks for an event changes nothing but the queue. -/
theorem asks_next? {move : Move} (hAsks : move.asks = true)
    (h : x.next? move = some (y, entries)) : ∃ events, y = x.withEvents events := by
  have hAside {action : Client.Action} (hAction : x.aside? action = some (y, entries))
      (hEither : action = .takeEvent ∨ action = .missEvent) : ∃ events, y = x.withEvents events := by
    obtain ⟨⟨d, entries'⟩, hNext, hEq⟩ := Option.map_eq_some_iff.mp hAction
    cases hEq
    have hTurn := Client.turn hNext
    rcases hEither with rfl | rfl <;> cases hTurn
    · exact ⟨_, rfl⟩
    · exact ⟨_, rfl⟩
  cases move with
  | takeEvent => exact hAside h (.inl rfl)
  | missEvent => exact hAside h (.inr rfl)
  | _ => cases hAsks

/-- Whatever events wait, and whether anybody asks for them or not, everything else goes the same
way. -/
theorem follow?_withEvents {moves : List Move} (h : x.follow? moves = some (trace, y)) :
    ∃ events', (x.withEvents events).follow? (moves.filter (!·.asks)) =
      some (trace.filter (!·.asks), y.withEvents events') := by
  induction moves generalizing x events trace with
  | nil =>
    cases h
    exact ⟨events, rfl⟩
  | cons move rest ih =>
    unfold follow? at h
    split at h
    · cases h
    · rename_i z entries hStep
      obtain ⟨⟨more, w⟩, hRest, hEq⟩ := Option.map_eq_some_iff.mp h
      cases hEq
      have hEntries := (next?_queueing hStep).asks
      cases hAsks : move.asks with
      | true =>
        rw [hAsks] at hEntries
        obtain ⟨queue, rfl⟩ := asks_next? hAsks hStep
        obtain ⟨events', hFollow⟩ := ih events hRest
        have hNone : entries.filter (!·.asks) = [] := by simpa using hEntries
        refine ⟨events', ?_⟩
        rw [List.filter_cons_of_neg (by simp [hAsks]), List.filter_append, hNone]
        exact hFollow
      | false =>
        obtain ⟨queue, hNext⟩ := withEvents_next? events hAsks hStep
        obtain ⟨events', hFollow⟩ := ih queue hRest
        rw [hAsks] at hEntries
        have hAll : entries.filter (!·.asks) = entries := by simpa using hEntries
        refine ⟨events', ?_⟩
        rw [List.filter_cons_of_pos (by simp [hAsks]), List.filter_append, hAll, follow?, hNext]
        simp only [hFollow, Option.map_some]

/-- What waits can be taken, whatever has become of the client. -/
theorem follow?_takeEvents (x : Exchange) :
    x.follow? (List.replicate x.client.events.length .takeEvent) =
      some (x.client.events.map .took, x.withEvents []) := by
  generalize hEvents : x.client.events = events
  induction events generalizing x with
  | nil =>
    have hSame : x.withEvents [] = x := by rw [← hEvents]; rfl
    rw [hSame]
    rfl
  | cons e rest ih =>
    have hStep : x.next? .takeEvent = some (x.withEvents rest, [.took e]) := by
      simp only [next?, aside?, Client.next?, Client.takeEvent?, hEvents]
      rfl
    have hRest := ih (x.withEvents rest) rfl
    rw [List.length_cons, List.replicate_succ, follow?, hStep]
    simp only [hRest]
    rfl

/-- What a run shows of the events that were received in it; `kept` are the places of those that
were queued. -/
structure Delivers (x : Exchange) (trace : List Entry) (kept : List Nat) : Prop where
  accounted : Accounted trace x.client.events kept
  /-- When a wait has returned an answer, all events received before the answer are accounted for. -/
  answered : ∀ seq result, x.caller seq = .returned result →
    (∃ before text writable after r, trace = before ++ .received text writable :: after ∧
      answer? seq text = some r ∧ result = Client.judge r ∧
      ∀ n < before.length, ∀ e, eventAt trace n = some e →
        Settled trace x.client.events kept n e) ∨
    result = .error .closed ∨ ∃ command limit, result = .error (.timeout command limit)
  /-- What comes of any moves, except of those that ask for events, does not depend on the events
  that wait, nor on whether somebody asks for them. -/
  spared : ∀ events moves more y, x.follow? moves = some (more, y) →
    ∃ events', (x.withEvents events).follow? (moves.filter (!·.asks)) =
      some (more.filter (!·.asks), y.withEvents events')
  /-- What waits can be taken, whatever has become of the client, -/
  takable : x.follow? (List.replicate x.client.events.length .takeEvent) =
    some (x.client.events.map .took, x.withEvents [])
  /-- and nobody who asks goes without an event while one waits. -/
  missed : ∀ y entries, x.next? .missEvent = some (y, entries) → x.client.events = [] ∧ y = x

end Exchange

/-- A result is an answer that was received, or none has come in time or before the end. -/
theorem verdict_origin {seq : Int} {trace : List Entry} {result : Except CallError Response}
    (h : verdict seq trace = some result) :
    (∃ before text writable after r, trace = before ++ .received text writable :: after ∧
      answer? seq text = some r ∧ result = Client.judge r) ∨
    result = .error .closed ∨ ∃ command limit, result = .error (.timeout command limit) := by
  obtain ⟨before, entry, after, hSince, hDecision, -⟩ := List.findSome?_eq_some_iff.mp h
  obtain ⟨first, hTrace⟩ : since seq trace <:+ trace :=
    (List.tail_suffix _).trans (List.dropWhile_suffix _)
  rw [hSince] at hTrace
  unfold decision at hDecision
  split at hDecision
  · rename_i text writable
    obtain ⟨r, hAnswer, hJudge⟩ := Option.map_eq_some_iff.mp hDecision
    exact .inl ⟨first ++ before, text, writable, after, r, by simp [← hTrace], hAnswer, hJudge.symm⟩
  · exact .inr (.inl (Option.some.inj hDecision).symm)
  · rename_i number command limit
    split at hDecision
    · exact .inr (.inr ⟨command, limit, (Option.some.inj hDecision).symm⟩)
    · cases hDecision
  · cases hDecision

/-- In every run, with callers and the loop suspended anywhere, the events that are taken are some of
those that were received, in the same order and each at most once; no more than `eventCapacity` of
them ever wait, and an event is left out only if so many waited when it was received. Nothing else
depends on how many wait. -/
theorem events_taken_or_dropped {transport : Stream.Transport} {trace : List Entry} {x : Exchange}
    (hRun : Exchange.Run (.create transport) trace x) : ∃ kept, x.Delivers trace kept := by
  obtain ⟨kept, hAccount⟩ := hRun.accounted
  refine ⟨kept, hAccount, fun seq result hReturned => ?_, fun events moves more y hFollow => ?_,
    x.follow?_takeEvents, fun y entries hMissed => ?_⟩
  · have hVerdict := hRun.sound.correlated.returned seq result hReturned
    rcases verdict_origin hVerdict with ⟨before, text, writable, after, r, hTrace, hAnswer, hJudge⟩ |
      hNone
    · exact .inl ⟨before, text, writable, after, r, hTrace, hAnswer, hJudge,
        fun n _ e hEvent => hAccount.settled hEvent⟩
    · exact .inr hNone
  · exact Exchange.follow?_withEvents events hFollow
  · obtain ⟨⟨d, entries'⟩, hNext, hEq⟩ := Option.map_eq_some_iff.mp hMissed
    cases hEq
    cases Client.turn hNext with
    | missed hEvents => exact ⟨hEvents, rfl⟩

/-- The frame of a message arrives. -/
def arrives (message : String) : Move :=
  .transport (.arrive (Utf8.encode (Frame.encode message).toList))

/-- An event arrives before the answer to a request and another one behind it, and nobody asks for
them until the loop has come to its end. -/
def lateReader : Option (List Entry × Exchange) :=
  (Exchange.create .fresh).follow?
    [.begin "threads" none, .advance 1, .loop,
      arrives "\x7b\"seq\":1,\"type\":\"event\",\"event\":\"output\"\x7d", .loop, .loop, .loop,
      arrives ("\x7b\"seq\":2,\"type\":\"response\",\"request_seq\":1,\"success\":true," ++
        "\"command\":\"threads\"\x7d"), .loop, .loop, .loop,
      arrives "\x7b\"seq\":3,\"type\":\"event\",\"event\":\"stopped\"\x7d", .loop, .loop, .loop,
      .wait 1 (.ofSecs 1), .advance 1, .dropSender, .loop, .loop, .loop, .takeEvent]

theorem lateReader_shown :
    lateReader.map (fun (trace, x) =>
      ((taken trace).map Event.event, x.client.events.map Event.event,
        x.caller 1 matches .returned (.ok _), decide (x.client.phase = .ended))) =
      some (["output"], ["stopped"], true, true) := by
  decide +kernel

/-- One event is taken behind the end of the loop, and the other can be taken too. -/
theorem lateReader_delivered :
    ∃ trace x kept r e y, lateReader = some (trace, x) ∧ x.client.phase = .ended ∧
      x.Delivers trace kept ∧ (taken trace).map Event.event = ["output"] ∧ e.event = "stopped" ∧
      x.follow? [.takeEvent] = some ([.took e], y) ∧ x.caller 1 = .returned (.ok r) ∧
      ∃ before text writable after, trace = before ++ .received text writable :: after ∧
        answer? (1 : Nat) text = some r ∧
        ∀ n < before.length, ∀ e, eventAt trace n = some e →
          Settled trace x.client.events kept n e := by
  obtain ⟨⟨trace, x⟩, hEval, hShown⟩ := Option.map_eq_some_iff.mp lateReader_shown
  simp only [Prod.mk.injEq, decide_eq_true_eq] at hShown
  obtain ⟨hTaken, hWaiting, hReturned, hEnded⟩ := hShown
  obtain ⟨kept, hDelivers⟩ := events_taken_or_dropped (Exchange.run_of_follow? hEval)
  obtain ⟨e, hEvents, hName⟩ : ∃ e, x.client.events = [e] ∧ e.event = "stopped" := by
    simpa [List.map_eq_singleton_iff] using hWaiting
  obtain ⟨r, hCaller⟩ : ∃ r, x.caller 1 = .returned (.ok r) := by
    split at hReturned
    · exact ⟨_, by assumption⟩
    · cases hReturned
  have hTake := hDelivers.takable
  rw [hEvents] at hTake
  rcases hDelivers.answered 1 _ hCaller with
    ⟨before, text, writable, after, r', hTrace, hAnswer, hJudge, hSettled⟩ | hNone | ⟨_, _, hNone⟩
  · obtain rfl : r = r' := by
      unfold Client.judge at hJudge
      split at hJudge <;> cases hJudge
      rfl
    exact ⟨trace, x, kept, r, e, _, hEval, hEnded, hDelivers, hTaken, hName, hTake, hCaller,
      before, text, writable, after, hTrace, hAnswer, hSettled⟩
  · cases hNone
  · cases hNone

end EditorBridge.Adapter
