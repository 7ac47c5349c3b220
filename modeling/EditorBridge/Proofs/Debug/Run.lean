import EditorBridge.Debug.Startup
import EditorBridge.Proofs.Adapter.Holding
/-!
Runs of the start of a debug session. The start goes on when what it waits for is there or its time
is over, and between that the loop of the client and the connection go on. The trace of a run is
that of what the client is asked to do; what a step can do is said once, in `Turn`.
-/
namespace EditorBridge.Debug

/-- The requests whose answers a start still waits for. -/
def Stage.held : Stage → List Nat
  | .opening seq => [seq]
  | .initializing start => [start]
  | .configuring start seq => [seq, start]
  | .starting start => [start]
  | .ended _ => []

namespace Startup

open Adapter (Entry)

/-- What can happen to a start. -/
inductive Action where
  /-- It goes on when what it waits for is there, -/
  | goOn
  /-- and its time may be over only before. -/
  | expire (limit : Duration)
  | loop
  | transport (happening : Stream.Happening)

def configureActions (s : Startup) : List Adapter.Client.Action :=
  if wantsConfigurationDone s.capabilities then [.send configurationDoneCommand none] else []

/-- What the client is asked to do when the start goes on, -/
def goOnActions (s : Startup) : List Adapter.Client.Action :=
  match s.stage with
  | .opening seq =>
    match s.client.result? seq with
    | some (.ok _) => [.poll seq, .send s.request.command (some s.session.configuration.toJson)]
    | _ => [.poll seq]
  | .initializing _ =>
    match s.client.events with
    | [] => .missEvent :: s.configureActions
    | e :: _ =>
      if e.event = initializedEvent then .takeEvent :: s.configureActions else [.takeEvent]
  | .configuring _ seq => [.poll seq]
  | .starting start => [.poll start]
  | .ended _ => []

/-- and when its time is over. -/
def expireActions (s : Startup) (limit : Duration) : List Adapter.Client.Action :=
  match s.stage with
  | .opening seq => [.giveUp seq Adapter.Client.handshakeCommand limit]
  | .initializing _ => .missEvent :: s.configureActions
  | .configuring _ seq => [.giveUp seq configurationDoneCommand limit]
  | .starting start => [.giveUp start s.request.command limit]
  | .ended _ => []

/-- What becomes of a start, and what the client is asked to do for it. -/
def move? (s : Startup) : Action → Option (Startup × List Adapter.Client.Action)
  | .goOn => s.step?.map (·, s.goOnActions)
  | .expire limit =>
    match s.step?, s.result? with
    | none, none => some (s.expire limit, s.expireActions limit)
    | _, _ => none
  | .loop => s.client.loopStep?.map fun client => ({ s with client }, [.loop])
  | .transport happening => some ({ s with client := { s.client with
      connection := s.client.connection.onto (·.after happening) } }, [.transport happening])

def next? (s : Startup) (action : Action) : Option (Startup × List Entry) :=
  match s.move? action with
  | none => none
  | some (d, actions) => (s.client.follow? actions).map fun (entries, _) => (d, entries)

/-- The steps of a start one after the other, with their trace. -/
inductive Run (s : Startup) : List Entry → Startup → Prop where
  | start : Run s [] s
  | step {trace entries : List Entry} {d e : Startup} {action : Action} (prior : Run s trace d)
      (last : d.next? action = some (e, entries)) : Run s (trace ++ entries) e

def follow? (s : Startup) : List Action → Option (List Entry × Startup)
  | [] => some ([], s)
  | action :: rest =>
    match s.next? action with
    | none => none
    | some (d, entries) => (follow? d rest).map fun (trace, e) => (entries ++ trace, e)

variable {s d e : Startup} {entries : List Entry}

theorem Run.single {action : Action} (h : s.next? action = some (d, entries)) : Run s entries d :=
  .step .start h

theorem Run.trans {first second : List Entry} (hFirst : Run s first d) (hSecond : Run d second e) :
    Run s (first ++ second) e := by
  induction hSecond with
  | start => simpa using hFirst
  | step prior last ih => rw [← List.append_assoc]; exact .step ih last

theorem run_of_follow? {actions : List Action} {trace : List Entry}
    (h : s.follow? actions = some (trace, d)) : Run s trace d := by
  induction actions generalizing s trace with
  | nil =>
    cases h
    exact .start
  | cons action rest ih =>
    unfold follow? at h
    split at h
    · cases h
    · rename_i e entries hStep
      obtain ⟨⟨more, f⟩, hRest, hEnd⟩ := Option.map_eq_some_iff.mp h
      cases hEnd
      exact (Run.single hStep).trans (ih hRest)

/-- Handing in a request: the next stage knows it by its number. A start whose request is not taken
is over. -/
inductive Sends (s : Startup) (command : String) (arguments : Option Json) (next : Nat → Stage) :
    Startup → List Entry → Prop where
  | taken {c : Adapter.Client} {entries : List Entry} (hTakes : s.client.takesRequests = true)
      (hNext : s.client.next? (.send command arguments) = some (c, entries)) :
      Sends s command arguments next { s with client := c, stage := next s.client.nextSeq } entries
  | refused {c : Adapter.Client} {entries : List Entry} (hTakes : s.client.takesRequests = false)
      (hNext : s.client.next? (.send command arguments) = some (c, entries)) :
      Sends s command arguments next ({ s with client := c }.finish (.error .transport)) entries

/-- The adapter takes its configuration, or is taken to do so. -/
inductive Configures (s : Startup) (start : Nat) : Startup → List Entry → Prop where
  | told {d : Startup} {entries : List Entry}
      (hWants : wantsConfigurationDone s.capabilities = true)
      (hSends : Sends s configurationDoneCommand none (.configuring start) d entries) :
      Configures s start d entries
  | untold (hWants : wantsConfigurationDone s.capabilities = false) :
      Configures s start { s with stage := .starting start } []

/-- What a step of a start does. -/
inductive Turn (s : Startup) : Startup → List Entry → Prop where
  | aside {action : Adapter.Client.Action} {c : Adapter.Client} {entries : List Entry}
      (hNext : s.client.next? action = some (c, entries))
      (hAction : action = .loop ∨ ∃ happening, action = .transport happening) :
      Turn s { s with client := c } entries
  /-- The answer that it waits for is an error, or is not there in time. -/
  | failed {action : Adapter.Client.Action} {c : Adapter.Client} {entries : List Entry}
      {e : Adapter.CallError} (hNext : s.client.next? action = some (c, entries))
      (hSilent : Adapter.sentRequests entries = []) :
      Turn s ({ s with client := c }.finish (.error e)) entries
  | opened {seq : Nat} {c : Adapter.Client} {r : Adapter.Response} {d : Startup}
      {entries more : List Entry} (hStage : s.stage = .opening seq)
      (hResult : s.client.result? seq = some (.ok r))
      (hNext : s.client.next? (.poll seq) = some (c, entries))
      (hSends : Sends { s with client := c, capabilities := r.body.getD .null } s.request.command
        (some s.session.configuration.toJson) .initializing d more) : Turn s d (entries ++ more)
  /-- An event that tells nothing about the start. -/
  | passed {start : Nat} {c : Adapter.Client} {entries : List Entry}
      (hStage : s.stage = .initializing start)
      (hNext : s.client.next? .takeEvent = some (c, entries)) :
      Turn s { s with client := c } entries
  | ready {start : Nat} {action : Adapter.Client.Action} {c : Adapter.Client} {d : Startup}
      {entries more : List Entry} (hStage : s.stage = .initializing start)
      (hNext : s.client.next? action = some (c, entries))
      (hAction : action = .takeEvent ∨ action = .missEvent)
      (hTold : (∃ e, entries = [.took e] ∧ e.event = initializedEvent) ∨ entries = [.noEvent])
      (hConfigures : Configures { s with client := c } start d more) : Turn s d (entries ++ more)
  | configured {start seq : Nat} {c : Adapter.Client} {r : Adapter.Response} {entries : List Entry}
      (hStage : s.stage = .configuring start seq)
      (hResult : s.client.result? seq = some (.ok r))
      (hNext : s.client.next? (.poll seq) = some (c, entries)) :
      Turn s { s with client := c, stage := .starting start } entries
  | started {start : Nat} {c : Adapter.Client} {r : Adapter.Response} {entries : List Entry}
      (hStage : s.stage = .starting start) (hResult : s.client.result? start = some (.ok r))
      (hNext : s.client.next? (.poll start) = some (c, entries)) :
      Turn s ({ s with client := c }.finish (.ok ())) entries

/-- What the client is asked to do is what the start does to it. -/
theorem send_turn (s : Startup) (command : String) (arguments : Option Json)
    (next : Nat → Stage) : ∃ entries,
      s.client.follow? [.send command arguments] =
        some (entries, (s.send command arguments next).client) ∧
      Sends s command arguments next (s.send command arguments next) entries := by
  cases hTakes : s.client.takesRequests with
  | true =>
    have hNext := Adapter.Client.next?_send_taken hTakes command arguments
    have hSend := Adapter.Client.send_taken hTakes command arguments
    simp only [send, hSend]
    exact ⟨_, Adapter.Client.follow?_single hNext, .taken hTakes hNext⟩
  | false =>
    have hNext := Adapter.Client.next?_send_refused hTakes command arguments
    have hSend := Adapter.Client.send_refused hTakes command arguments
    simp only [send, hSend]
    exact ⟨_, Adapter.Client.follow?_single hNext, .refused hTakes hNext⟩

theorem configure_turn (s : Startup) (start : Nat) : ∃ entries,
    s.client.follow? s.configureActions = some (entries, (s.configure start).client) ∧
      Configures s start (s.configure start) entries := by
  cases hWants : wantsConfigurationDone s.capabilities with
  | true =>
    obtain ⟨entries, hFollow, hSends⟩ :=
      send_turn s configurationDoneCommand none (.configuring start)
    simp only [configureActions, configure, hWants, if_true]
    exact ⟨entries, hFollow, .told hWants hSends⟩
  | false =>
    simp only [configureActions, configure, hWants]
    exact ⟨[], rfl, .untold hWants⟩

/-- An answer that is there is taken. -/
theorem poll_turn {seq : Nat} {next : Startup → Adapter.Response → Startup}
    (h : s.answered? seq next = some d) : ∃ c result,
      s.client.next? (.poll seq) = some (c, [.returned seq result]) ∧
      s.client.result? seq = some result ∧
      ((∃ e, result = .error e ∧ d = { s with client := c }.finish (.error e)) ∨
        ∃ r, result = .ok r ∧ d = next { s with client := c } r) := by
  obtain ⟨⟨c, result⟩, hPoll, hEq⟩ := Option.map_eq_some_iff.mp h
  refine ⟨c, result, by simp only [Adapter.Client.next?, hPoll, Option.map_some],
    (Adapter.Client.poll?_some hPoll).2, ?_⟩
  cases result with
  | error e => exact .inl ⟨e, rfl, hEq.symm⟩
  | ok r => exact .inr ⟨r, rfl, hEq.symm⟩

theorem goOn_turn (h : s.step? = some d) : ∃ entries,
    s.client.follow? s.goOnActions = some (entries, d.client) ∧ Turn s d entries := by
  cases hStage : s.stage with
  | opening seq =>
    simp only [step?, hStage] at h
    obtain ⟨c, result, hNext, hResult, ⟨e, rfl, rfl⟩ | ⟨r, rfl, rfl⟩⟩ := poll_turn h
    · simp only [goOnActions, hStage, hResult]
      exact ⟨_, Adapter.Client.follow?_single hNext, .failed hNext rfl⟩
    · obtain ⟨more, hFollow, hSends⟩ :=
        send_turn { s with client := c, capabilities := r.body.getD .null } s.request.command
          (some s.session.configuration.toJson) .initializing
      simp only [goOnActions, hStage, hResult]
      exact ⟨_, Adapter.Client.follow?_cons hNext hFollow, .opened hStage hResult hNext hSends⟩
  | initializing start =>
    simp only [step?, hStage] at h
    unfold takeEvent? at h
    cases hEvents : s.client.events with
    | nil =>
      have hNone : s.client.takeEvent? = none := by simp only [Adapter.Client.takeEvent?, hEvents]
      simp only [hNone] at h
      split at h
      · cases h
        have hNext : s.client.next? .missEvent = some (s.client, [.noEvent]) := by
          simp only [Adapter.Client.next?, hEvents, if_true]
        obtain ⟨more, hFollow, hConfigures⟩ := configure_turn s start
        simp only [goOnActions, hStage, hEvents]
        exact ⟨_, Adapter.Client.follow?_cons hNext hFollow,
          .ready hStage hNext (.inr rfl) (.inr rfl) hConfigures⟩
      · cases h
    | cons e rest =>
      have hSome : s.client.takeEvent? = some ({ s.client with events := rest }, e) := by
        simp only [Adapter.Client.takeEvent?, hEvents]
      have hNext : s.client.next? .takeEvent =
          some ({ s.client with events := rest }, [.took e]) := by
        simp only [Adapter.Client.next?, hSome, Option.map_some]
      simp only [hSome] at h
      split at h
      · rename_i hReady
        cases h
        obtain ⟨more, hFollow, hConfigures⟩ :=
          configure_turn { s with client := { s.client with events := rest } } start
        simp only [goOnActions, hStage, hEvents, hReady, if_true]
        exact ⟨_, Adapter.Client.follow?_cons hNext hFollow,
          .ready hStage hNext (.inl rfl) (.inl ⟨e, rfl, hReady⟩) hConfigures⟩
      · rename_i hOther
        cases h
        have hActions : s.goOnActions = [.takeEvent] := by
          simp only [goOnActions, hStage, hEvents, hOther, if_false]
        rw [hActions]
        exact ⟨_, Adapter.Client.follow?_single hNext, .passed hStage hNext⟩
  | configuring start seq =>
    simp only [step?, hStage] at h
    obtain ⟨c, result, hNext, hResult, ⟨e, rfl, rfl⟩ | ⟨r, rfl, rfl⟩⟩ := poll_turn h
    · simp only [goOnActions, hStage]
      exact ⟨_, Adapter.Client.follow?_single hNext, .failed hNext rfl⟩
    · simp only [goOnActions, hStage]
      exact ⟨_, Adapter.Client.follow?_single hNext, .configured hStage hResult hNext⟩
  | starting start =>
    simp only [step?, hStage] at h
    obtain ⟨c, result, hNext, hResult, ⟨e, rfl, rfl⟩ | ⟨r, rfl, rfl⟩⟩ := poll_turn h
    · simp only [goOnActions, hStage]
      exact ⟨_, Adapter.Client.follow?_single hNext, .failed hNext rfl⟩
    · simp only [goOnActions, hStage]
      exact ⟨_, Adapter.Client.follow?_single hNext, .started hStage hResult hNext⟩
  | ended result =>
    simp only [step?, hStage] at h
    cases h

theorem giveUp_turn {seq : Nat} {next : Startup → Adapter.Response → Startup} (command : String)
    (limit : Duration) (h : s.answered? seq next = none) : ∃ entries,
      s.client.follow? [.giveUp seq command limit] =
        some (entries, (s.giveUp seq command limit).client) ∧
      Turn s (s.giveUp seq command limit) entries := by
  have hPoll : s.client.poll? seq = none := Option.map_eq_none_iff.mp h
  have hNext : s.client.next? (.giveUp seq command limit) = some (s.client.giveUp seq,
      [.expired seq command limit, .returned seq (.error (.timeout command limit))]) := by
    simp only [Adapter.Client.next?, hPoll]
  exact ⟨_, Adapter.Client.follow?_single hNext, .failed hNext rfl⟩

theorem expire_turn (limit : Duration) (hStep : s.step? = none) (hResult : s.result? = none) :
    ∃ entries, s.client.follow? (s.expireActions limit) =
        some (entries, (s.expire limit).client) ∧ Turn s (s.expire limit) entries := by
  cases hStage : s.stage with
  | opening seq | configuring start seq | starting start =>
    simp only [step?, hStage] at hStep
    simp only [expireActions, expire, hStage]
    exact giveUp_turn _ limit hStep
  | initializing start =>
    have hEvents : s.client.events = [] := by
      cases hEvents : s.client.events with
      | nil => rfl
      | cons e rest =>
        simp only [step?, hStage, takeEvent?, Adapter.Client.takeEvent?, hEvents] at hStep
        split at hStep <;> cases hStep
    have hNext : s.client.next? .missEvent = some (s.client, [.noEvent]) := by
      simp only [Adapter.Client.next?, hEvents, if_true]
    obtain ⟨more, hFollow, hConfigures⟩ := configure_turn s start
    simp only [expireActions, expire, hStage]
    exact ⟨_, Adapter.Client.follow?_cons hNext hFollow,
      .ready hStage hNext (.inr rfl) (.inr rfl) hConfigures⟩
  | ended result =>
    simp only [result?, hStage] at hResult
    cases hResult

/-- Every step of a start can be told, and it is one of the turns. -/
theorem move_turn {action : Action} {actions : List Adapter.Client.Action}
    (h : s.move? action = some (d, actions)) : ∃ entries,
      s.client.follow? actions = some (entries, d.client) ∧ Turn s d entries := by
  cases action with
  | goOn =>
    obtain ⟨e, hStep, hEq⟩ := Option.map_eq_some_iff.mp h
    cases hEq
    exact goOn_turn hStep
  | expire limit =>
    simp only [move?] at h
    split at h
    · rename_i hStep hResult
      cases h
      exact expire_turn limit hStep hResult
    · cases h
  | loop =>
    obtain ⟨c, hLoop, hEq⟩ := Option.map_eq_some_iff.mp h
    cases hEq
    obtain ⟨entries, hNext⟩ : ∃ entries, s.client.next? .loop = some (c, entries) :=
      ⟨_, by rw [Adapter.Client.next?, hLoop, Option.map_some]⟩
    exact ⟨_, Adapter.Client.follow?_single hNext, .aside hNext (.inl rfl)⟩
  | transport happening =>
    cases h
    have hNext : s.client.next? (.transport happening) = some (_, []) := rfl
    exact ⟨_, Adapter.Client.follow?_single hNext, .aside hNext (.inr ⟨happening, rfl⟩)⟩

theorem turn {action : Action} (h : s.next? action = some (d, entries)) :
    Turn s d entries ∧ s.client.Run entries d.client := by
  unfold next? at h
  split at h
  · cases h
  · rename_i e actions hMove
    obtain ⟨entries', hFollow, hTurn⟩ := move_turn hMove
    rw [hFollow] at h
    cases h
    exact ⟨hTurn, Adapter.Client.run_of_follow? hFollow⟩

end Startup
end EditorBridge.Debug
