import EditorBridge.Proofs.Adapter.Numbering
import EditorBridge.Proofs.Debug.Run
/-!
The protocol of the start of a debug session, whatever the adapter does: the opening request, the
request for the session once the opening one is answered, and the end of the configuration once the
adapter is initialized or is taken to be, if it wants that. Before there is a plan nothing outside
is touched.
-/
namespace EditorBridge.Debug

open Adapter (Entry messages sentRequests verdict wasSent)

/-- The requests that the connection to the adapter has accepted. -/
def written (trace : List Entry) : List Adapter.Request :=
  (messages trace).filterMap Adapter.Message.request?

/-- The requests of a start with a resolved configuration, with their arguments. -/
def script (config : LaunchConfiguration) : List (String × Option Json) :=
  [(Adapter.Client.handshakeCommand,
      some (Adapter.Client.handshakeArguments clientName (config.debugType?.getD ""))),
    (config.request?.getD "launch", some config.toJson), (configurationDoneCommand, none)]

/-- An event that tells that the adapter is initialized was taken, or none came in time, or none
could come any more. -/
def Told (trace : List Entry) : Prop :=
  (∃ e, .took e ∈ trace ∧ e.event = initializedEvent) ∨ .noEvent ∈ trace

/-- Requests that were sent so far, and why those behind the first could be. -/
inductive History (session : SessionInfo) (request : StartRequest) (trace : List Entry) :
    List Adapter.Request → Prop where
  | opening {first : Nat} : History session request trace
      [⟨first, Adapter.Client.handshakeCommand,
        some (Adapter.Client.handshakeArguments clientName session.debugType)⟩]
  | started {first second : Nat} {r : Adapter.Response}
      (hOpened : verdict first trace = some (.ok r)) : History session request trace
      [⟨first, Adapter.Client.handshakeCommand,
        some (Adapter.Client.handshakeArguments clientName session.debugType)⟩,
        ⟨second, request.command, some session.configuration.toJson⟩]
  | configured {first second third : Nat} {r : Adapter.Response}
      (hOpened : verdict first trace = some (.ok r))
      (hWants : wantsConfigurationDone (r.body.getD .null) = true) (hTold : Told trace) :
      History session request trace
      [⟨first, Adapter.Client.handshakeCommand,
        some (Adapter.Client.handshakeArguments clientName session.debugType)⟩,
        ⟨second, request.command, some session.configuration.toJson⟩,
        ⟨third, configurationDoneCommand, none⟩]

section History

variable {session : SessionInfo} {request : StartRequest} {trace entries : List Entry}
  {sent : List Adapter.Request}

theorem wasSent_of_mem {q : Adapter.Request} (h : q ∈ sentRequests trace) :
    wasSent q.seq trace = true :=
  Adapter.wasSent_iff.mpr (List.mem_map_of_mem h)

theorem Told.append (h : Told trace) : Told (trace ++ entries) := by
  rcases h with ⟨e, hTook, hReady⟩ | hNone
  · exact .inl ⟨e, List.mem_append_left _ hTook, hReady⟩
  · exact .inr (List.mem_append_left _ hNone)

/-- What could be sent stays justified. -/
theorem History.append (h : History session request trace sent)
    (hSent : ∀ q ∈ sent, wasSent q.seq trace = true) :
    History session request (trace ++ entries) sent := by
  cases h with
  | opening => exact .opening
  | started hOpened =>
    exact .started (Adapter.verdict_stays (hSent _ (.head _)) hOpened)
  | configured hOpened hWants hTold =>
    exact .configured (Adapter.verdict_stays (hSent _ (.head _)) hOpened) hWants
      (Told.append hTold)

theorem History.script {config : LaunchConfiguration}
    (h : History (.ofConfiguration config) request trace sent)
    (hCommand : request.command = config.request?.getD "launch") :
    sent.map (fun q => (q.command, q.arguments)) <+: script config := by
  cases h with
  | opening => exact ⟨_, rfl⟩
  | started =>
    simp only [List.map_cons, List.map_nil, hCommand]
    exact ⟨_, rfl⟩
  | configured =>
    simp only [List.map_cons, List.map_nil, hCommand]
    exact List.prefix_rfl

end History

namespace Startup

variable {session : SessionInfo} {request : StartRequest} {s d : Startup}
  {trace entries more : List Entry} {c : Adapter.Client}

/-- What holds at every moment of a start. -/
structure Sound (session : SessionInfo) (request : StartRequest) (s : Startup)
    (trace : List Entry) : Prop where
  ofSession : s.session = session
  ofRequest : s.request = request
  kept : s.client.Kept trace s.stage.held
  distinct : s.stage.held.Nodup
  history : History session request trace (sentRequests trace)
  /-- A request that is not held any more was answered with success, or the start has failed. -/
  answered : (∀ e, s.stage ≠ .ended (.error e)) → ∀ q ∈ sentRequests trace,
    (∃ seq ∈ s.stage.held, q.seq = (seq : Int)) ∨ ∃ r, verdict q.seq trace = some (.ok r)
  opening : ∀ seq, s.stage = .opening seq →
    (sentRequests trace).map Adapter.Request.seq = [(seq : Int)]
  initializing : ∀ start, s.stage = .initializing start → ∃ first second r,
    sentRequests trace = [first, second] ∧ verdict first.seq trace = some (.ok r) ∧
      s.capabilities = r.body.getD .null

theorem Sound.answered_append (h : Sound session request s trace)
    (hSilent : sentRequests entries = []) (hAlive : ∀ e, s.stage ≠ .ended (.error e)) :
    ∀ q ∈ sentRequests (trace ++ entries), (∃ seq ∈ s.stage.held, q.seq = (seq : Int)) ∨
      ∃ r, verdict q.seq (trace ++ entries) = some (.ok r) := by
  intro q hMem
  rw [Adapter.sentRequests_append, hSilent, List.append_nil] at hMem
  refine (h.answered hAlive q hMem).imp_right fun ⟨r, hVerdict⟩ => ⟨r, ?_⟩
  exact Adapter.verdict_stays (wasSent_of_mem hMem) hVerdict

theorem Sound.history_append (h : Sound session request s trace)
    (hSilent : sentRequests entries = []) :
    History session request (trace ++ entries) (sentRequests (trace ++ entries)) := by
  rw [Adapter.sentRequests_append, hSilent, List.append_nil]
  exact h.history.append fun q => wasSent_of_mem

/-- A step that sends nothing and leaves the stage. -/
theorem Sound.stay (h : Sound session request s trace)
    (hKept : c.Kept (trace ++ entries) s.stage.held) (hSilent : sentRequests entries = []) :
    Sound session request { s with client := c } (trace ++ entries) where
  ofSession := h.ofSession
  ofRequest := h.ofRequest
  kept := hKept
  distinct := h.distinct
  history := h.history_append hSilent
  answered := h.answered_append hSilent
  opening seq hStage := by simpa [hSilent] using h.opening seq hStage
  initializing start hStage := by
    obtain ⟨first, second, r, hSent, hVerdict, hCapabilities⟩ := h.initializing start hStage
    have hFirst : first ∈ sentRequests trace := by simp [hSent]
    exact ⟨first, second, r, by simp [hSent, hSilent],
      Adapter.verdict_stays (wasSent_of_mem hFirst) hVerdict, hCapabilities⟩

/-- A step that sends nothing and comes to a later stage. -/
theorem Sound.move (h : Sound session request s trace) (hSession : d.session = s.session)
    (hRequest : d.request = s.request) (hKept : d.client.Kept (trace ++ entries) d.stage.held)
    (hDistinct : d.stage.held.Nodup) (hSilent : sentRequests entries = [])
    (hOpening : ∀ seq, d.stage ≠ .opening seq)
    (hInitializing : ∀ start, d.stage ≠ .initializing start)
    (hAnswered : (∀ e, d.stage ≠ .ended (.error e)) → ∀ q ∈ sentRequests trace,
      (∃ seq ∈ d.stage.held, q.seq = (seq : Int)) ∨
        ∃ r, verdict q.seq (trace ++ entries) = some (.ok r)) :
    Sound session request d (trace ++ entries) where
  ofSession := hSession.trans h.ofSession
  ofRequest := hRequest.trans h.ofRequest
  kept := hKept
  distinct := hDistinct
  history := h.history_append hSilent
  answered hAlive q hMem := hAnswered hAlive q (by simpa [hSilent] using hMem)
  opening seq hStage := absurd hStage (hOpening seq)
  initializing start hStage := absurd hStage (hInitializing start)

/-- A start that fails holds nothing any more. -/
theorem Sound.fail (h : Sound session request s trace) {e : Adapter.CallError}
    (hSession : d.session = s.session) (hRequest : d.request = s.request)
    (hStage : d.stage = .ended (.error e)) (hKept : d.client.Kept (trace ++ entries) [])
    (hSilent : sentRequests entries = []) : Sound session request d (trace ++ entries) := by
  refine h.move hSession hRequest ?_ ?_ hSilent ?_ ?_ fun hAlive => absurd hStage (hAlive e)
  · rw [hStage]
    exact hKept
  · rw [hStage]
    exact List.nodup_nil
  · intro seq
    rw [hStage]
    exact Stage.noConfusion
  · intro start
    rw [hStage]
    exact Stage.noConfusion

/-- The request that was awaited is answered with success; the others stay as they are. -/
theorem Sound.answer (h : Sound session request s trace) {seq : Nat} {r : Adapter.Response}
    (hHeld : seq ∈ s.stage.held) (hResult : s.client.result? seq = some (.ok r))
    (hAlive : ∀ e, s.stage ≠ .ended (.error e)) :
    verdict seq trace = some (.ok r) ∧ ∀ q ∈ sentRequests trace,
      (∃ other ∈ s.stage.held.erase seq, q.seq = (other : Int)) ∨
        ∃ r, verdict q.seq trace = some (.ok r) := by
  have hVerdict := h.kept.poll hHeld hResult
  refine ⟨hVerdict, fun q hMem => ?_⟩
  rcases h.answered hAlive q hMem with ⟨other, hOther, hSeq⟩ | hAnswered
  · by_cases hSame : other = seq
    · exact .inr ⟨r, by rw [hSeq, hSame, hVerdict]⟩
    · exact .inl ⟨other, (List.mem_erase_of_ne hSame).mpr hOther, hSeq⟩
  · exact .inr hAnswered

/-- A request that is handed in is held, under a number of its own, or nothing is held any more. -/
theorem Sends.kept {command : String} {arguments : Option Json} {next : Nat → Stage}
    {held : List Nat} (hSends : Sends s command arguments next d more)
    (hKept : s.client.Kept trace held) :
    (∃ c, more = [.sent ⟨s.client.nextSeq, command, arguments⟩] ∧
      d = { s with client := c, stage := next s.client.nextSeq } ∧
      c.Kept (trace ++ more) (s.client.nextSeq :: held) ∧ s.client.nextSeq ∉ held) ∨
    ∃ c, sentRequests more = [] ∧ d = { s with client := c }.finish (.error .transport) ∧
      c.Kept (trace ++ more) [] := by
  cases hSends with
  | taken hTakes hNext =>
    obtain ⟨hMore, hAfter⟩ := hKept.send hTakes hNext
    refine .inl ⟨_, hMore, rfl, hAfter, fun hMem => ?_⟩
    exact Nat.lt_irrefl _ (hKept.lt (hKept.held _ hMem).1)
  | refused hTakes hNext =>
    refine .inr ⟨_, ?_, rfl, hKept.turn (Adapter.Client.turn hNext) nofun⟩
    have hRefused := Adapter.Client.next?_send_refused hTakes command arguments
    cases hNext.symm.trans hRefused
    rfl

/-- The opening request is answered, and the request for the session goes out. -/
theorem Sound.opened (h : Sound session request s trace) {seq : Nat} {r : Adapter.Response}
    (hStage : s.stage = .opening seq) (hResult : s.client.result? seq = some (.ok r))
    (hNext : s.client.next? (.poll seq) = some (c, entries))
    (hSends : Sends { s with client := c, capabilities := r.body.getD .null } s.request.command
      (some s.session.configuration.toJson) .initializing d more) :
    Sound session request d (trace ++ (entries ++ more)) := by
  have hTurn := Adapter.Client.turn hNext
  have hSilent : sentRequests entries = [] := hTurn.silent nofun
  have hVerdict : verdict seq trace = some (.ok r) :=
    h.kept.poll (by simp [hStage, Stage.held]) hResult
  have hPolled : c.Kept (trace ++ entries) [] := h.kept.turn hTurn nofun
  rcases hSends.kept hPolled with ⟨e, hMore, rfl, hKept, -⟩ | ⟨e, hMore, rfl, hKept⟩
  · have hFirst := h.opening seq hStage
    have hHistory := h.history
    -- Only the opening request was sent before.
    generalize hSent : sentRequests trace = sent at hFirst hHistory
    cases hHistory with
    | started => simp at hFirst
    | configured => simp at hFirst
    | @opening first =>
      obtain rfl : first = seq := Int.ofNat.inj (by simpa using hFirst)
      have hWasSent : wasSent first trace = true :=
        Adapter.wasSent_iff.mpr (by simp [hSent])
      have hVerdict' : verdict first (trace ++ (entries ++ more)) = some (.ok r) :=
        Adapter.verdict_stays hWasSent hVerdict
      have hAll : sentRequests (trace ++ (entries ++ more)) =
          [⟨first, Adapter.Client.handshakeCommand,
            some (Adapter.Client.handshakeArguments clientName session.debugType)⟩,
            ⟨c.nextSeq, request.command, some session.configuration.toJson⟩] := by
        have hNow : sentRequests more =
            [⟨c.nextSeq, s.request.command, some s.session.configuration.toJson⟩] := by
          rw [hMore]
          rfl
        simp only [Adapter.sentRequests_append, hSent, hSilent, hNow, h.ofRequest, h.ofSession,
          List.nil_append, List.singleton_append]
      constructor
      · exact h.ofSession
      · exact h.ofRequest
      · rw [← List.append_assoc]
        exact hKept
      · exact List.nodup_singleton _
      · rw [hAll]
        exact .started hVerdict'
      · intro _ q hMem
        rw [hAll] at hMem
        rcases List.mem_cons.mp hMem with rfl | hMem
        · exact .inr ⟨r, hVerdict'⟩
        · rw [List.mem_singleton.mp hMem]
          exact .inl ⟨c.nextSeq, .head _, rfl⟩
      · intro _ hOther
        cases hOther
      · intro _ _
        exact ⟨_, _, r, hAll, hVerdict', rfl⟩
  · rw [List.append_assoc] at hKept
    exact h.fail rfl rfl rfl hKept (by simp [hSilent, hMore])

/-- The end of the configuration is sent, if the adapter wants that. -/
theorem Sound.ready (h : Sound session request s trace) {start : Nat}
    (hStage : s.stage = .initializing start)
    (hKept : c.Kept (trace ++ entries) s.stage.held) (hSilent : sentRequests entries = [])
    (hTold : Told (trace ++ entries))
    (hConfigures : Configures { s with client := c } start d more) :
    Sound session request d (trace ++ (entries ++ more)) := by
  obtain ⟨first, second, r, hSent, hVerdict, hCapabilities⟩ := h.initializing start hStage
  have hFirst : wasSent first.seq trace = true := wasSent_of_mem (by simp [hSent])
  have hOld := h.answered (by simp [hStage])
  rw [hStage] at hKept hOld
  cases hConfigures with
  | untold hWants =>
    have hAfter := h.answered_append hSilent (by simp [hStage])
    rw [hStage] at hAfter
    rw [List.append_nil]
    refine h.move rfl rfl hKept (List.nodup_singleton _) hSilent ?_ ?_ ?_
    · intro _ hOther
      cases hOther
    · intro _ hOther
      cases hOther
    · intro _ q hMem
      exact hAfter q (by simp [hMem])
  | told hWants hSends =>
    rcases hSends.kept hKept with ⟨e, hMore, rfl, hKept, hNew⟩ | ⟨e, hMore, rfl, hKept⟩
    · have hAll : sentRequests (trace ++ (entries ++ more)) =
          [first, second, ⟨c.nextSeq, configurationDoneCommand, none⟩] := by
        have hNow : sentRequests more = [⟨c.nextSeq, configurationDoneCommand, none⟩] := by
          rw [hMore]
          rfl
        simp only [Adapter.sentRequests_append, hSent, hSilent, hNow, List.nil_append,
          List.cons_append]
      constructor
      · exact h.ofSession
      · exact h.ofRequest
      · rw [← List.append_assoc]
        exact hKept
      · exact List.nodup_cons.mpr ⟨hNew, List.nodup_singleton _⟩
      · have hHistory := h.history
        rw [hAll]
        rw [hSent] at hHistory
        cases hHistory with
        | started =>
          refine .configured (Adapter.verdict_stays hFirst hVerdict) ?_ ?_
          · rw [← hCapabilities]
            exact hWants
          · rw [← List.append_assoc]
            exact hTold.append
      · intro _ q hMem
        rw [hAll] at hMem
        have hCases : q ∈ sentRequests trace ∨
            q = ⟨c.nextSeq, configurationDoneCommand, none⟩ := by
          rw [hSent]
          simpa [or_assoc] using hMem
        rcases hCases with hBefore | rfl
        · refine (hOld q hBefore).imp ?_ ?_
          · rintro ⟨seq, hHeld, hSeq⟩
            exact ⟨seq, List.mem_cons_of_mem _ hHeld, hSeq⟩
          · rintro ⟨r, hAnswered⟩
            exact ⟨r, Adapter.verdict_stays (wasSent_of_mem hBefore) hAnswered⟩
        · exact .inl ⟨c.nextSeq, .head _, rfl⟩
      · intro _ hOther
        cases hOther
      · intro _ hOther
        cases hOther
    · rw [List.append_assoc] at hKept
      exact h.fail rfl rfl rfl hKept (by simp [hSilent, hMore])

/-- Every step of a start keeps to the protocol. -/
theorem Sound.turn (h : Sound session request s trace) (hTurn : Turn s d entries) :
    Sound session request d (trace ++ entries) := by
  cases hTurn with
  | @aside action c entries hNext hAction =>
    have hStep := Adapter.Client.turn hNext
    have hOwn (seq : Nat) : ¬ action.Takes seq := by
      rcases hAction with rfl | ⟨happening, rfl⟩ <;> exact id
    have hSilent : sentRequests entries = [] := by
      refine hStep.silent ?_
      rcases hAction with rfl | ⟨happening, rfl⟩ <;> exact nofun
    exact h.stay (h.kept.turn hStep fun seq hMem => ⟨hMem, hOwn seq⟩) hSilent
  | failed hNext hSilent =>
    exact h.fail rfl rfl rfl (h.kept.turn (Adapter.Client.turn hNext) nofun) hSilent
  | opened hStage hResult hNext hSends => exact h.opened hStage hResult hNext hSends
  | passed hStage hNext =>
    have hStep := Adapter.Client.turn hNext
    exact h.stay (h.kept.turn hStep fun seq hMem => ⟨hMem, id⟩) (hStep.silent nofun)
  | @ready start action c _ entries more hStage hNext hAction hTold hConfigures =>
    have hStep := Adapter.Client.turn hNext
    have hOwn (seq : Nat) : ¬ action.Takes seq := by
      rcases hAction with rfl | rfl <;> exact id
    have hSilent : sentRequests entries = [] := by
      refine hStep.silent ?_
      rcases hAction with rfl | rfl <;> exact nofun
    have hKept := h.kept.turn hStep fun seq hMem => ⟨hMem, hOwn seq⟩
    refine h.ready hStage hKept hSilent ?_ hConfigures
    rcases hTold with ⟨e, rfl, hReady⟩ | rfl
    · exact .inl ⟨e, by simp, hReady⟩
    · exact .inr (by simp)
  | @configured start seq c r entries hStage hResult hNext =>
    have hStep := Adapter.Client.turn hNext
    have hSilent := hStep.silent nofun
    have hDistinct := h.distinct
    rw [hStage] at hDistinct
    obtain ⟨hOther, -⟩ := List.nodup_cons.mp hDistinct
    have hKept : c.Kept (trace ++ entries) [start] := by
      refine h.kept.turn hStep fun number hMem => ?_
      obtain rfl := List.mem_singleton.mp hMem
      refine ⟨by simp [hStage, Stage.held], ?_⟩
      rintro rfl
      exact hOther (.head _)
    obtain ⟨-, hAnswered⟩ := h.answer (by simp [hStage, Stage.held]) hResult (by simp [hStage])
    refine h.move rfl rfl hKept (List.nodup_singleton _) hSilent nofun nofun fun _ q hMem => ?_
    refine (hAnswered q hMem).imp ?_ ?_
    · rw [hStage]
      simp [Stage.held]
    · rintro ⟨r, hVerdict⟩
      exact ⟨r, Adapter.verdict_stays (wasSent_of_mem hMem) hVerdict⟩
  | @started start c r entries hStage hResult hNext =>
    have hStep := Adapter.Client.turn hNext
    have hSilent := hStep.silent nofun
    obtain ⟨-, hAnswered⟩ := h.answer (by simp [hStage, Stage.held]) hResult (by simp [hStage])
    refine h.move rfl rfl (h.kept.turn hStep nofun) List.nodup_nil hSilent nofun nofun
      fun _ q hMem => ?_
    rcases hAnswered q hMem with ⟨seq, hHeld, -⟩ | ⟨r, hVerdict⟩
    · simp [hStage, Stage.held] at hHeld
    · exact .inr ⟨r, Adapter.verdict_stays (wasSent_of_mem hMem) hVerdict⟩

theorem Run.sound {start : Startup} {prior : List Entry} (hRun : Run start trace s)
    (h : Sound session request start prior) : Sound session request s (prior ++ trace) := by
  induction hRun with
  | start => simpa using h
  | step before last ih =>
    rw [← List.append_assoc]
    exact ih.turn (Startup.turn last).1

theorem Run.client {start : Startup} (hRun : Run start trace s) :
    start.client.Run trace s.client := by
  induction hRun with
  | start => exact .start
  | step before last ih => exact ih.trans (Startup.turn last).2

end Startup

/-- What the trace tells of the opening request. -/
def StartPlan.opening (plan : StartPlan) : List Entry :=
  [.sent ⟨1, Adapter.Client.handshakeCommand,
    some (Adapter.Client.handshakeArguments clientName plan.session.debugType)⟩]

namespace Startup

variable {request : StartRequest} {s : Startup} {trace : List Entry}

theorem create_next (plan : StartPlan) (transport : Stream.Transport) :
    (Adapter.Client.create transport).next? (.send Adapter.Client.handshakeCommand
        (some (Adapter.Client.handshakeArguments clientName plan.session.debugType))) =
      some ((create plan transport).client, plan.opening) := rfl

theorem sound_create (plan : StartPlan) (transport : Stream.Transport) :
    Sound plan.session plan.request (create plan transport) plan.opening where
  ofSession := rfl
  ofRequest := rfl
  kept := ((Adapter.Client.kept_create transport).send rfl (create_next plan transport)).2
  distinct := List.nodup_singleton _
  history := .opening
  answered _ q hMem := .inl ⟨1, .head _, by rw [List.mem_singleton.mp hMem]; rfl⟩
  opening seq hStage := by
    cases hStage
    rfl
  initializing _ hStage := nomatch hStage

/-- What a start shows that opened its session with a resolved configuration. -/
structure Obeys (config : LaunchConfiguration) (s : Startup) (trace : List Entry) : Prop where
  written : (written trace).map (fun q => (q.command, q.arguments)) <+: script config
  /-- The request for the session is written only if the opening one is answered with success, -/
  started : ∀ first second rest, Debug.written trace = first :: second :: rest →
    ∃ r, verdict first.seq trace = some (.ok r) ∧ r.success = true
  /-- and the end of the configuration only if the answer asks for it and the adapter tells that it
  is initialized or does not come to that. -/
  configured : ∀ first second third rest,
    Debug.written trace = first :: second :: third :: rest →
    ∃ r, verdict first.seq trace = some (.ok r) ∧
      wantsConfigurationDone (r.body.getD .null) = true ∧ Told trace
  /-- A start ends well only if every request that was sent, written or not, is answered with
  success. -/
  answered : s.stage = .ended (.ok ()) → ∀ q ∈ sentRequests trace,
    ∃ r, verdict q.seq trace = some (.ok r) ∧ r.success = true
  sent : Debug.written trace <+: sentRequests trace

theorem Sound.obeys {config : LaunchConfiguration}
    (h : Sound (.ofConfiguration config) request s trace)
    (hCommand : request.command = config.request?.getD "launch")
    (hWritten : written trace <+: sentRequests trace) : Obeys config s trace where
  written := (hWritten.map _).trans (h.history.script hCommand)
  started first second rest hList := by
    rw [hList] at hWritten
    have hHistory := h.history
    generalize sentRequests trace = sent at hWritten hHistory
    cases hHistory with
    | opening => simp [List.cons_prefix_cons] at hWritten
    | started hOpened | configured hOpened =>
      obtain ⟨rfl, -⟩ := List.cons_prefix_cons.mp hWritten
      exact ⟨_, hOpened, Adapter.verdict_success hOpened⟩
  configured first second third rest hList := by
    rw [hList] at hWritten
    have hHistory := h.history
    generalize sentRequests trace = sent at hWritten hHistory
    cases hHistory with
    | opening | started => simp [List.cons_prefix_cons] at hWritten
    | configured hOpened hWants hTold =>
      obtain ⟨rfl, -⟩ := List.cons_prefix_cons.mp hWritten
      exact ⟨_, hOpened, hWants, hTold⟩
  answered hStage q hMem := by
    rcases h.answered (by simp [hStage]) q hMem with ⟨seq, hHeld, -⟩ | ⟨r, hVerdict⟩
    · simp [hStage, Stage.held] at hHeld
    · exact ⟨r, hVerdict, Adapter.verdict_success hVerdict⟩
  sent := hWritten

end Startup

section Opening

variable {ω α : Type} (reach : StartPlan → ω → ω × Except StartError (Stream.Transport × α))
  {r : Registry} {folder : Option WorkspaceFolder} {config resolved : LaunchConfiguration}
  {token : Option CancellationToken} {world after : ω} {s : Startup} {kept : α}

end Opening

/-- The frame of a message of an adapter. -/
def arrival (message : String) : Startup.Action :=
  .transport (.arrive (Utf8.encode (Frame.encode message).toList))

end EditorBridge.Debug
