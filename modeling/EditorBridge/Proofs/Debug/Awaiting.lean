import EditorBridge.Proofs.Adapter.Events
import EditorBridge.Proofs.Debug.Startup
/-!
What a start has to do with the events of its adapter. Only the start asks for them, and only while
it waits for the adapter to be initialized: it takes the events in order until one tells that, or
none waits and the time is over or none will come. So the wait is left once, and what waits in the
queue then decides how.
-/
namespace EditorBridge.Debug

open Adapter (Entry Event eventAt taken unread Accounted Queueing eventCapacity)

/-- Does a start leave its wait for the adapter with an entry? It has taken the event, or none has
come. -/
def leaves : Entry → Bool
  | .took e => e.event == initializedEvent
  | .noEvent => true
  | _ => false

/-- Is the wait for the adapter still to come, or under way? -/
def Stage.waits : Stage → Bool
  | .opening _ | .initializing _ => true
  | _ => false

theorem leaves_of_not_asks {entry : Entry} (h : entry.asks = false) : leaves entry = false := by
  cases entry with
  | took | noEvent => cases h
  | _ => rfl

namespace Startup

variable {s d : Startup} {entries trace : List Entry} {action : Action}

/-- A client that is asked nothing about events tells nothing about them. -/
theorem follow?_not_asks {c e : Adapter.Client} {actions : List Adapter.Client.Action}
    (h : c.follow? actions = some (entries, e)) (hOther : ∀ a ∈ actions, a.asks = false) :
    ∀ entry ∈ entries, entry.asks = false := by
  induction actions generalizing c entries with
  | nil =>
    cases h
    simp
  | cons a rest ih =>
    obtain ⟨hFirst, hRest⟩ := List.forall_mem_cons.mp hOther
    unfold Adapter.Client.follow? at h
    split at h
    · cases h
    · rename_i d more hStep
      obtain ⟨⟨last, f⟩, hFollow, hEq⟩ := Option.map_eq_some_iff.mp h
      cases hEq
      have hMore := (Adapter.Client.turn hStep).queueing.asks
      rw [hFirst] at hMore
      exact List.forall_mem_append.mpr ⟨hMore, ih hFollow hRest⟩

theorem configureActions_asks (s : Startup) : ∀ a ∈ s.configureActions, a.asks = false := by
  unfold configureActions
  split <;> simp [Adapter.Client.Action.asks]

theorem send_waits (s : Startup) (command : String) (arguments : Option Json)
    (next : Nat → Stage) : (∃ seq, (s.send command arguments next).stage = next seq) ∨
      ∃ e, (s.send command arguments next).stage = .ended (.error e) := by
  unfold send
  split
  · exact .inl ⟨_, rfl⟩
  · exact .inr ⟨_, rfl⟩

theorem configure_waits (s : Startup) (start : Nat) : (s.configure start).stage.waits = false := by
  unfold configure
  split
  · rcases send_waits s configurationDoneCommand none (.configuring start) with ⟨_, h⟩ | ⟨_, h⟩ <;>
    · rw [h]
      rfl
  · rfl

/-- The start with other events waiting. -/
def withEvents (s : Startup) (events : List Event) : Startup :=
  { s with client := { s.client with events } }

/-- What a step does to the wait for the adapter. -/
inductive Waiting (s : Startup) : Startup → List Entry → Prop where
  /-- Nobody asks for an event. -/
  | quiet {d : Startup} {entries : List Entry} (hOther : ∀ e ∈ entries, e.asks = false)
      (hStage : (d.stage.waits = s.stage.waits ∧
        ∀ result, s.stage = .ended result → d.stage = .ended result) ∨
        ∃ e, d.stage = .ended (.error e)) : Waiting s d entries
  /-- An event that tells nothing about the start is taken. -/
  | passed {e : Event} {rest : List Event} (hStage : s.stage.waits = true)
      (hEvents : s.client.events = e :: rest) (hOther : e.event ≠ initializedEvent) :
      Waiting s (s.withEvents rest) [.took e]
  /-- The wait is left, with the event that has waited longest if there is one. -/
  | left {exit : Entry} {d : Startup} {rest : List Event} {more : List Entry}
      (hStage : s.stage.waits = true) (hLeaves : leaves exit = true)
      (hQueueing : Queueing s.client.events true [exit] rest)
      (hMore : ∀ e ∈ more, e.asks = false) (hOver : d.stage.waits = false) :
      Waiting s d (exit :: more)

/-- What the client is asked to do is told. -/
theorem next?_eq_some (h : s.next? action = some (d, entries)) : ∃ actions,
    s.move? action = some (d, actions) ∧ s.client.follow? actions = some (entries, d.client) := by
  unfold next? at h
  split at h
  · cases h
  · rename_i e actions hMove
    obtain ⟨entries', hFollow, -⟩ := move_turn hMove
    rw [hFollow] at h
    cases h
    exact ⟨actions, hMove, hFollow⟩

theorem follow?_cons_eq_some {c e : Adapter.Client} {first : Adapter.Client.Action}
    {rest : List Adapter.Client.Action} (h : c.follow? (first :: rest) = some (entries, e)) :
    ∃ d more last, c.next? first = some (d, more) ∧ d.follow? rest = some (last, e) ∧
      entries = more ++ last := by
  unfold Adapter.Client.follow? at h
  split at h
  · cases h
  · rename_i d more hStep
    obtain ⟨⟨last, f⟩, hFollow, hEq⟩ := Option.map_eq_some_iff.mp h
    cases hEq
    exact ⟨d, more, last, hStep, hFollow, rfl⟩

/-- A start that takes an answer, or gives it up, asks for no event. -/
theorem Waiting.of_follow? {actions : List Adapter.Client.Action} {c : Adapter.Client}
    (hFollow : s.client.follow? actions = some (entries, c))
    (hActions : ∀ a ∈ actions, a.asks = false)
    (hStage : (d.stage.waits = s.stage.waits ∧
      ∀ result, s.stage = .ended result → d.stage = .ended result) ∨
      ∃ e, d.stage = .ended (.error e)) : Waiting s d entries :=
  .quiet (follow?_not_asks hFollow hActions) hStage

/-- Asking for an event and then ending the configuration. -/
theorem follow?_asking {ask : Adapter.Client.Action} {exit : Entry} (t : Startup) (start : Nat)
    (hNext : s.client.next? ask = some (t.client, [exit])) : ∃ more,
      s.client.follow? (ask :: t.configureActions) =
        some (exit :: more, (t.configure start).client) ∧ ∀ e ∈ more, e.asks = false := by
  obtain ⟨more, hFollow, -⟩ := configure_turn t start
  exact ⟨more, Adapter.Client.follow?_cons hNext hFollow,
    follow?_not_asks hFollow t.configureActions_asks⟩

theorem next?_missEvent (hEvents : s.client.events = []) :
    s.client.next? .missEvent = some (s.client, [.noEvent]) := by
  simp only [Adapter.Client.next?, hEvents, if_true]

theorem next?_takeEvent {e : Event} {rest : List Event} (hEvents : s.client.events = e :: rest) :
    s.client.next? .takeEvent = some ({ s.client with events := rest }, [.took e]) := by
  simp only [Adapter.Client.next?, Adapter.Client.takeEvent?, hEvents, Option.map_some]

theorem step?_initializing {start : Nat} (hStage : s.stage = .initializing start) :
    s.step? = s.takeEvent? start := by
  simp only [step?, hStage]

theorem takeEvent?_cons {e : Event} {rest : List Event} (hEvents : s.client.events = e :: rest)
    (start : Nat) : s.takeEvent? start =
      if e.event = initializedEvent then some ((s.withEvents rest).configure start)
      else some (s.withEvents rest) := by
  simp only [takeEvent?, Adapter.Client.takeEvent?, hEvents]
  rfl

/-- An event that tells nothing about the start is passed over, -/
theorem next?_passes {start : Nat} {e : Event} {rest : List Event}
    (hStage : s.stage = .initializing start) (hEvents : s.client.events = e :: rest)
    (hOther : e.event ≠ initializedEvent) :
    s.next? .goOn = some (s.withEvents rest, [.took e]) := by
  have hStep : s.step? = some (s.withEvents rest) := by
    rw [step?_initializing hStage, takeEvent?_cons hEvents, if_neg hOther]
  have hActions : s.goOnActions = [.takeEvent] := by
    simp only [goOnActions, hStage, hEvents, hOther, if_false]
  simp only [next?, move?, hStep, Option.map_some, hActions,
    Adapter.Client.follow?_single (next?_takeEvent hEvents)]

/-- and with the one that it waits for it leaves. -/
theorem next?_finds {start : Nat} {e : Event} {rest : List Event}
    (hStage : s.stage = .initializing start) (hEvents : s.client.events = e :: rest)
    (hReady : e.event = initializedEvent) :
    ∃ more, s.next? .goOn = some ((s.withEvents rest).configure start, .took e :: more) ∧
      ∀ entry ∈ more, entry.asks = false := by
  have hStep : s.step? = some ((s.withEvents rest).configure start) := by
    rw [step?_initializing hStage, takeEvent?_cons hEvents, if_pos hReady]
  have hActions : s.goOnActions = .takeEvent :: (s.withEvents rest).configureActions := by
    simp only [goOnActions, hStage, hEvents, hReady, if_true]
    rfl
  obtain ⟨more, hFollow, hMore⟩ :=
    follow?_asking (s.withEvents rest) start (next?_takeEvent hEvents)
  exact ⟨more, by simp only [next?, move?, hStep, Option.map_some, hActions, hFollow], hMore⟩

/-- While an event waits, the time is not over. -/
theorem next?_expire {start : Nat} {e : Event} {rest : List Event}
    (hStage : s.stage = .initializing start) (hEvents : s.client.events = e :: rest)
    (limit : Duration) : s.next? (.expire limit) = none := by
  obtain ⟨d, hStep⟩ : ∃ d, s.step? = some d := by
    rw [step?_initializing hStage, takeEvent?_cons hEvents]
    split <;> exact ⟨_, rfl⟩
  simp only [next?, move?, hStep]

/-- Without any event, going on means that none will come, and so does the end of the time. -/
theorem next?_misses {start : Nat} (hStage : s.stage = .initializing start)
    (hEvents : s.client.events = []) (hAction : action = .goOn ∨ ∃ limit, action = .expire limit)
    (h : s.next? action = some (d, entries)) :
    d = s.configure start ∧ ∃ more, entries = .noEvent :: more ∧ ∀ e ∈ more, e.asks = false := by
  obtain ⟨actions, hMove, hFollow⟩ := next?_eq_some h
  obtain ⟨more, hAsking, hMore⟩ := follow?_asking s start (next?_missEvent hEvents)
  have hBoth : d = s.configure start ∧ actions = .missEvent :: s.configureActions := by
    rcases hAction with rfl | ⟨limit, rfl⟩
    · obtain ⟨e, hStep, hEq⟩ := Option.map_eq_some_iff.mp hMove
      cases hEq
      rw [step?_initializing hStage, takeEvent?, Adapter.Client.takeEvent?, hEvents] at hStep
      dsimp only at hStep
      split at hStep
      · exact ⟨(Option.some.inj hStep).symm, by simp only [goOnActions, hStage, hEvents]⟩
      · cases hStep
    · simp only [move?] at hMove
      split at hMove
      · cases hMove
        exact ⟨by simp only [expire, hStage], by simp only [expireActions, hStage]⟩
      · cases hMove
  obtain ⟨rfl, rfl⟩ := hBoth
  obtain ⟨rfl, -⟩ := Prod.mk.inj (Option.some.inj (hFollow.symm.trans hAsking))
  exact ⟨rfl, more, rfl, hMore⟩

theorem initializing_waiting {start : Nat} (hStage : s.stage = .initializing start)
    (hAction : action = .goOn ∨ ∃ limit, action = .expire limit)
    (h : s.next? action = some (d, entries)) : Waiting s d entries := by
  have hWaits : s.stage.waits = true := by rw [hStage]; rfl
  cases hEvents : s.client.events with
  | nil =>
    obtain ⟨rfl, more, rfl, hMore⟩ := next?_misses hStage hEvents hAction h
    exact .left hWaits rfl (.missed hEvents) hMore (s.configure_waits start)
  | cons e rest =>
    rcases hAction with rfl | ⟨limit, rfl⟩
    · by_cases hReady : e.event = initializedEvent
      · obtain ⟨more, hNext, hMore⟩ := next?_finds hStage hEvents hReady
        obtain ⟨rfl, rfl⟩ := Prod.mk.inj (Option.some.inj (hNext.symm.trans h))
        exact .left hWaits (by simp [leaves, hReady]) (.took hEvents) hMore (configure_waits _ start)
      · have hNext := next?_passes hStage hEvents hReady
        obtain ⟨rfl, rfl⟩ := Prod.mk.inj (Option.some.inj (hNext.symm.trans h))
        exact .passed hWaits hEvents hReady
    · simp [next?_expire hStage hEvents limit] at h

/-- Taking an answer, a start goes on or fails. -/
theorem answered?_stage {seq : Nat} {next : Startup → Adapter.Response → Startup}
    (h : s.answered? seq next = some d) : (∃ t r, d = next t r) ∨
      ∃ e, d.stage = .ended (.error e) := by
  obtain ⟨⟨c, result⟩, -, rfl⟩ := Option.map_eq_some_iff.mp h
  cases result with
  | error e => exact .inr ⟨e, rfl⟩
  | ok r => exact .inl ⟨_, r, rfl⟩

theorem next?_waiting (h : s.next? action = some (d, entries)) : Waiting s d entries := by
  obtain ⟨actions, hMove, hFollow⟩ := next?_eq_some h
  cases action with
  | loop =>
    obtain ⟨e, -, hEq⟩ := Option.map_eq_some_iff.mp hMove
    cases hEq
    exact .of_follow? hFollow (by simp [Adapter.Client.Action.asks]) (.inl ⟨rfl, fun _ => id⟩)
  | transport happening =>
    cases hMove
    exact .of_follow? hFollow (by simp [Adapter.Client.Action.asks]) (.inl ⟨rfl, fun _ => id⟩)
  | goOn =>
    obtain ⟨e, hStep, hEq⟩ := Option.map_eq_some_iff.mp hMove
    cases hEq
    cases hStage : s.stage with
    | initializing start => exact initializing_waiting hStage (.inl rfl) h
    | opening seq =>
      refine .of_follow? hFollow ?_ ?_
      · simp only [goOnActions, hStage]
        split <;> simp [Adapter.Client.Action.asks]
      · simp only [step?, hStage] at hStep
        rcases answered?_stage hStep with ⟨t, r, rfl⟩ | hFailed
        · rcases send_waits { t with capabilities := r.body.getD .null } t.request.command
            (some t.session.configuration.toJson) .initializing with ⟨start, hNext⟩ | hFailed
          · refine .inl ⟨?_, by simp [hStage]⟩
            rw [opened, hNext, hStage]
            rfl
          · exact .inr hFailed
        · exact .inr hFailed
    | configuring start seq | starting start =>
      refine .of_follow? hFollow (by simp [goOnActions, hStage, Adapter.Client.Action.asks]) ?_
      simp only [step?, hStage] at hStep
      rcases answered?_stage hStep with ⟨t, r, rfl⟩ | hFailed
      · exact .inl ⟨by rw [hStage]; rfl, by simp [hStage]⟩
      · exact .inr hFailed
    | ended result =>
      simp only [step?, hStage] at hStep
      cases hStep
  | expire limit =>
    simp only [move?] at hMove
    split at hMove
    · rename_i hStep hResult
      cases hMove
      cases hStage : s.stage with
      | initializing start => exact initializing_waiting hStage (.inr ⟨limit, rfl⟩) h
      | opening seq | configuring start seq | starting start =>
        refine .of_follow? hFollow ?_ (.inr ?_)
        · simp [expireActions, hStage, Adapter.Client.Action.asks]
        · simp only [expire, hStage]
          exact ⟨_, rfl⟩
      | ended result =>
        simp only [result?, hStage] at hResult
        cases hResult
    · cases hMove

/-- How the wait was left, and what waited then. -/
structure Left (trace before : List Entry) (exit : Entry) (after : List Entry)
    (waiting : List Event) (kept : List Nat) : Prop where
  split : trace = before ++ exit :: after
  leaves : leaves exit = true
  /-- It is left once, -/
  first : ∀ e ∈ before, Debug.leaves e = false
  /-- and nobody asks for an event afterwards. -/
  last : ∀ e ∈ after, e.asks = false
  accounted : Accounted before waiting kept
  queueing : ∃ rest, Queueing waiting true [exit] rest

/-- How far a start has come with the wait. -/
inductive Progress (s : Startup) (trace : List Entry) : Prop where
  | waiting (hStage : s.stage.waits = true) (hNone : ∀ e ∈ trace, leaves e = false)
  | failed {e : Adapter.CallError} (hStage : s.stage = .ended (.error e))
      (hNone : ∀ e ∈ trace, leaves e = false)
  | left {before after : List Entry} {exit : Entry} {events : List Event} {kept : List Nat}
      (hStage : s.stage.waits = false) (hLeft : Left trace before exit after events kept)

theorem Left.append {before after more : List Entry} {exit : Entry} {events : List Event}
    {kept : List Nat} (h : Left trace before exit after events kept)
    (hMore : ∀ e ∈ more, e.asks = false) :
    Left (trace ++ more) before exit (after ++ more) events kept where
  split := by simp [h.split]
  leaves := h.leaves
  first := h.first
  last := List.forall_mem_append.mpr ⟨h.last, hMore⟩
  accounted := h.accounted
  queueing := h.queueing

theorem Progress.next {kept : List Nat} (h : Progress s trace)
    (hAccount : Accounted trace s.client.events kept) (hStep : s.next? action = some (d, entries)) :
    Progress d (trace ++ entries) := by
  have hNone {entries : List Entry} (hTrace : ∀ e ∈ trace, leaves e = false)
      (hEntries : ∀ e ∈ entries, leaves e = false) : ∀ e ∈ trace ++ entries, leaves e = false :=
    List.forall_mem_append.mpr ⟨hTrace, hEntries⟩
  cases next?_waiting hStep with
  | quiet hOther hStage =>
    have hSilent : ∀ e ∈ entries, leaves e = false := fun e hMem => leaves_of_not_asks (hOther e hMem)
    cases h with
    | waiting hWaits hBefore =>
      rcases hStage with ⟨hSame, -⟩ | ⟨e, hFailed⟩
      · exact .waiting (hSame.trans hWaits) (hNone hBefore hSilent)
      · exact .failed hFailed (hNone hBefore hSilent)
    | failed hEnded hBefore =>
      rcases hStage with ⟨-, hKeeps⟩ | ⟨e, hFailed⟩
      · exact .failed (hKeeps _ hEnded) (hNone hBefore hSilent)
      · exact .failed hFailed (hNone hBefore hSilent)
    | left hOver hLeft =>
      rcases hStage with ⟨hSame, -⟩ | ⟨e, hFailed⟩
      · exact .left (hSame.trans hOver) (hLeft.append hOther)
      · exact .left (by rw [hFailed]; rfl) (hLeft.append hOther)
  | @passed e rest hStage hEvents hOther =>
    cases h with
    | waiting hWaits hBefore => exact .waiting hStage (hNone hBefore (by simp [leaves, hOther]))
    | failed hEnded => simp [hEnded, Stage.waits] at hStage
    | left hOver => simp [hOver] at hStage
  | @left exit _ rest more hStage hLeaves hQueueing hMore hOver =>
    cases h with
    | waiting hWaits hBefore =>
      exact .left hOver ⟨rfl, hLeaves, hBefore, hMore, hAccount, rest, hQueueing⟩
    | failed hEnded => simp [hEnded, Stage.waits] at hStage
    | left hAlready => simp [hAlready] at hStage

theorem Run.ofClient {plan : StartPlan} {transport : Stream.Transport}
    (hRun : Run (create plan transport) trace s) :
    (Adapter.Client.create transport).Run (plan.opening ++ trace) s.client :=
  (Adapter.Client.Run.single (create_next plan transport)).trans hRun.client

theorem Run.progress {plan : StartPlan} {transport : Stream.Transport}
    (hRun : Run (create plan transport) trace s) : Progress s (plan.opening ++ trace) := by
  induction hRun with
  | start => exact .waiting rfl (by simp [StartPlan.opening, leaves])
  | step prior last ih =>
    obtain ⟨kept, hAccount⟩ := prior.ofClient.accounted
    rw [← List.append_assoc]
    exact ih.next hAccount last

/-- Before the wait is left, no event that it waits for is taken. -/
theorem ne_of_taken {e : Event} (h : ∀ entry ∈ trace, leaves entry = false)
    (hTaken : e ∈ taken trace) : e.event ≠ initializedEvent := by
  obtain ⟨entry, hMem, hSome⟩ := List.mem_filterMap.mp hTaken
  have hPassed := h entry hMem
  cases entry with
  | took e' =>
    obtain rfl := Option.some.inj hSome
    simpa [leaves] using hPassed
  | _ => cases hSome

/-- It is left with an event exactly if one that tells that the adapter is initialized was received
before while there was room for it. -/
theorem Left.took_iff {before after : List Entry} {exit : Entry} {events : List Event}
    {kept : List Nat} (h : Left trace before exit after events kept) :
    (∃ e, exit = .took e) ↔ ∃ n e, eventAt before n = some e ∧ e.event = initializedEvent ∧
      unread before kept n < eventCapacity := by
  have hLeaves := h.leaves
  obtain ⟨rest, hQueueing⟩ := h.queueing
  cases hQueueing with
  | @took e _ hEvents =>
    have hReady : e.event = initializedEvent := by simpa [Debug.leaves] using hLeaves
    have hMem : e ∈ taken before ++ events := by simp [hEvents]
    obtain ⟨n, hEvent, hRoom⟩ := h.accounted.mem_iff.mp hMem
    exact iff_of_true ⟨e, rfl⟩ ⟨n, e, hEvent, hReady, hRoom⟩
  | missed hEvents =>
    refine iff_of_false (by simp) ?_
    rintro ⟨n, e, hEvent, hReady, hRoom⟩
    have hMem := h.accounted.mem_iff.mpr ⟨n, hEvent, hRoom⟩
    rw [hEvents, List.append_nil] at hMem
    exact ne_of_taken h.first hMem hReady

/-- The wait is left with an event, and not because none has come. -/
def Finds (entries : List Entry) : Prop :=
  ∃ before e after, entries = before ++ .took e :: after ∧ e.event = initializedEvent ∧
    .noEvent ∉ before

theorem Finds.prepend {first : List Entry} (h : Finds entries) (hFirst : .noEvent ∉ first) :
    Finds (first ++ entries) := by
  obtain ⟨before, e, after, rfl, hReady, hNone⟩ := h
  exact ⟨first ++ before, e, after, by simp, hReady, by simp [hFirst, hNone]⟩

/-- Nothing else takes an event out of the queue. -/
theorem next?_keeps {i : Nat} {e : Event} (hAside : action = .loop ∨ ∃ h, action = .transport h)
    (hStep : s.next? action = some (d, entries)) (hEvent : s.client.events[i]? = some e) :
    d.stage = s.stage ∧ .noEvent ∉ entries ∧ d.client.events[i]? = some e := by
  obtain ⟨actions, hMove, hFollow⟩ := next?_eq_some hStep
  obtain ⟨a, hActions, hAsks, hStage⟩ : ∃ a, actions = [a] ∧ a.asks = false ∧
      d.stage = s.stage := by
    rcases hAside with rfl | ⟨happening, rfl⟩
    · obtain ⟨c, -, hEq⟩ := Option.map_eq_some_iff.mp hMove
      cases hEq
      exact ⟨_, rfl, rfl, rfl⟩
    · cases hMove
      exact ⟨_, rfl, rfl, rfl⟩
  subst hActions
  obtain ⟨c, more, last, hNext, hRest, rfl⟩ := follow?_cons_eq_some hFollow
  obtain ⟨rfl, hClient⟩ := Prod.mk.inj (Option.some.inj hRest)
  subst hClient
  have hQueueing := (Adapter.Client.turn hNext).queueing
  rw [hAsks] at hQueueing
  refine ⟨hStage, fun hMem => ?_, ?_⟩
  · rw [List.append_nil] at hMem
    have hOther := hQueueing.asks _ hMem
    cases hOther
  · generalize d.client.events = events at hQueueing
    cases hQueueing with
    | quiet | dropped => exact hEvent
    | kept =>
      have hLt : i < s.client.events.length := (List.getElem?_eq_some_iff.mp hEvent).1
      rw [List.getElem?_append_left hLt]
      exact hEvent

/-- An event at place `i` of the queue is come to when the start has gone on `i + 1` times, whatever
happens between that. -/
theorem follow?_finds {actions : List Action} {i start : Nat} {e : Event}
    (hStage : s.stage = .initializing start) (hEvent : s.client.events[i]? = some e)
    (hReady : e.event = initializedEvent) (hFollow : s.follow? actions = some (entries, d))
    (hOften : i < actions.countP (· matches .goOn)) : Finds entries := by
  induction actions generalizing s i entries with
  | nil => exact absurd hOften (Nat.not_lt_zero i)
  | cons action rest ih =>
    unfold follow? at hFollow
    split at hFollow
    · cases hFollow
    · rename_i t first hStep
      obtain ⟨⟨more, u⟩, hRest, hEq⟩ := Option.map_eq_some_iff.mp hFollow
      cases hEq
      cases hEvents : s.client.events with
      | nil => simp [hEvents] at hEvent
      | cons e' waiting =>
        cases action with
        | loop | transport =>
          obtain ⟨hSame, hNone, hStill⟩ := next?_keeps (by simp) hStep hEvent
          exact (ih (hSame.trans hStage) hStill hRest (by simpa using hOften)).prepend hNone
        | expire limit => simp [next?_expire hStage hEvents limit] at hStep
        | goOn =>
          by_cases hFound : e'.event = initializedEvent
          · obtain ⟨more', hNext, -⟩ := next?_finds hStage hEvents hFound
            obtain ⟨rfl, rfl⟩ := Prod.mk.inj (Option.some.inj (hNext.symm.trans hStep))
            exact ⟨[], e', more' ++ more, rfl, hFound, by simp⟩
          · have hNext := next?_passes hStage hEvents hFound
            obtain ⟨rfl, rfl⟩ := Prod.mk.inj (Option.some.inj (hNext.symm.trans hStep))
            cases i with
            | zero =>
              rw [hEvents] at hEvent
              obtain rfl := Option.some.inj hEvent
              exact absurd hReady hFound
            | succ i =>
              have hLater : (s.withEvents waiting).client.events[i]? = some e := by
                rw [hEvents] at hEvent
                exact hEvent
              have hStill : i < rest.countP (· matches .goOn) := by
                rw [List.countP_cons] at hOften
                simpa using hOften
              exact (ih (s := s.withEvents waiting) hStage hLater hRest hStill).prepend (by simp)

end Startup
end EditorBridge.Debug
