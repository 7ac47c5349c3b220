import EditorBridge.Proofs.Session.Parting
import EditorBridge.Proofs.Session.Returning
/-!
What a session says to its server at the end. When a session that is up is stopped, and its
connection stays open, the shutdown request is written behind everything that was taken before. The
notification of the exit follows it before the client leaves the connection, exactly if the answer
to the request is proper and comes in time.
-/
namespace EditorBridge.Session

/-- The first outcome of a call in a run. -/
def settled? (trace : List Step) (k id : Nat) : Option Rpc.Outcome :=
  trace.findSome? (·.settles? k id)

/-- The messages of callers that are written on the connection of an attempt in a run. -/
def writtenOn (trace : List Step) (k : Nat) : List String := trace.flatMap (·.written k)

/-- As long as the loop of an attempt runs, its connection is open. -/
def Step.KeepsOpen (step : Step) (k : Nat) : Prop :=
  ∀ c ∈ step.before.client? k, c.rpc.phase = .running → c.rpc.connection.IsLive

instance (step : Step) (k : Nat) : Decidable (step.KeepsOpen k) :=
  inferInstanceAs (Decidable (∀ c ∈ step.before.client? k, _))

/-- The client of an attempt is cut off while messages still wait to be written. -/
def Step.CutsOff (step : Step) (k : Nat) : Prop :=
  step.event = .fire (.flush k) ∧
    ∃ c, step.before.client? k = some c ∧ c.rpc.phase = .running ∧ c.rpc.accepted ≠ []

/-- What has been said by a client that is being closed, as far as the stopping has come. -/
inductive Said (s : State) (k id : Nat) (c : Lsp.Client) :
    Option Rpc.Outcome → List Rpc.Utterance → Prop where
  | nothing {last : Bool} (hStop : s.stop = some (.releasing k last))
      (hInitialized : c.initialized = true) (hOpen : c.rpc.isOpen = true)
      (hNext : c.rpc.nextId = id) : Said s k id c none []
  | request {last : Bool} {outcome : Option Rpc.Outcome}
      (hStop : s.stop = some (.closing k (.awaiting id) last)) (hOpen : c.rpc.isOpen = true)
      (hAwaits : c.Awaits id outcome) :
      Said s k id c outcome [.call id Lsp.methods.shutdown none]
  | all {last : Bool} {shutdown : Except Lsp.Error Unit} {outcome : Rpc.Outcome}
      (hStop : s.stop = some (.closing k (.flushing shutdown) last))
      (hClosed : c.rpc.isOpen = false) :
      Said s k id c (some outcome) (Lsp.Client.farewell id outcome)

/-- What has become of a client that is being closed, when all that waited before is `queued`: its
loop runs and what was said is written or waits, or it has left the connection and the rest of what
was said is lost. -/
inductive Parting (k id : Nat) (queued : List String) (trace : List Step) (s : State) : Prop where
  | running {c : Lsp.Client} {said : List Rpc.Utterance} (hClient : s.client? k = some c)
      (hRunning : c.rpc.phase = .running) (hSaid : Said s k id c (settled? trace k id) said)
      (hWritten : queued ++ said.map (·.text) = writtenOn trace k ++ c.rpc.accepted)
      (hWhole : ∀ step ∈ trace, ¬ step.CutsOff k)
  | left {c : Lsp.Client} {outcome : Rpc.Outcome} {rest : List String}
      (hClient : s.client? k = some c) (hPhase : s.phase? k = some .finished)
      (hLeft : c.rpc.phase ≠ .running) (hSettled : settled? trace k id = some outcome)
      (hWritten : queued ++ (Lsp.Client.farewell id outcome).map (·.text) =
        writtenOn trace k ++ rest)
      (hRest : rest ≠ [] ↔ ∃ step ∈ trace, step.CutsOff k)

variable {p : Profile} {s t u : State} {event : Event} {k id : Nat} {trace : List Step}
  {queued : List String} {c d : Lsp.Client} {said : List Rpc.Utterance}
  {outcome : Option Rpc.Outcome}

theorem settled?_snoc (trace : List Step) (step : Step) :
    settled? (trace ++ [step]) k id = (settled? trace k id).or (step.settles? k id) := by
  simp [settled?, List.findSome?_append]

theorem writtenOn_snoc (trace : List Step) (step : Step) :
    writtenOn (trace ++ [step]) k = writtenOn trace k ++ step.written k := by
  simp [writtenOn]

theorem exists_cutsOff_snoc (trace : List Step) (step : Step) :
    (∃ other ∈ trace ++ [step], other.CutsOff k) ↔
      (∃ other ∈ trace, other.CutsOff k) ∨ step.CutsOff k := by
  simp [or_and_right, exists_or]

/-- A call that is not open is not settled. -/
theorem Step.settles?_of_not_open {step : Step} (hClient : step.before.client? k = some c)
    (h : id ∉ c.rpc.pending) : step.settles? k id = none := by
  simp [Step.settles?, hClient, h]

theorem Step.written_eq (hClient : s.client? k = some c) (hClient' : t.client? k = some d) :
    (⟨s, event, t⟩ : Step).written k = c.rpc.written d.rpc := by
  simp [Step.written, hClient, hClient']

/-- What is written of a message that was taken, while the loop runs. -/
theorem written_of_flow {messages : List Rpc.Utterance} (hFlow : c.rpc.Flow d.rpc messages)
    (hClient : s.client? k = some c) (hClient' : t.client? k = some d)
    (hRunning : d.rpc.phase = .running)
    (hWritten : queued ++ said.map (·.text) = writtenOn trace k ++ c.rpc.accepted) :
    queued ++ (said ++ messages).map (·.text) =
      writtenOn (trace ++ [⟨s, event, t⟩]) k ++ d.rpc.accepted := by
  obtain ⟨rest, hAll, hRest⟩ := hFlow.tally ⟨_, hWritten, fun _ => rfl⟩
  rw [writtenOn_snoc, Step.written_eq hClient hClient', ← hRest hRunning, ← hAll, hFlow.taken_eq,
    List.map_append, List.append_assoc]

namespace Said

/-- What leaves the client up leaves what was said. -/
theorem of_calm {heard : Nat → Option Rpc.Response} {new : Option Rpc.Outcome}
    (h : Said s k id c outcome said) (hCalm : Lsp.Client.Calm heard c d) (hStop : t.stop = s.stop)
    (hNew : id ∉ c.rpc.pending → new = none) (hNumbered : c.Numbered)
    (hAwaits : c.Awaits id outcome → d.Awaits id (outcome.or new)) :
    Said t k id d (outcome.or new) said := by
  cases h with
  | nothing hReleasing hInitialized hOpen hNext =>
    rw [hNew fun hMem => Nat.ne_of_lt (hNumbered.rpc.numbered id hMem) hNext.symm]
    exact .nothing (hStop.trans hReleasing) (hCalm.initialized.trans hInitialized)
      (hCalm.isOpen.trans hOpen) (hCalm.nextId.trans hNext)
  | request hAwaiting hOpen hCall =>
    exact .request (hStop.trans hAwaiting) (hCalm.isOpen.trans hOpen) (hAwaits hCall)
  | all hFlushing hClosed => exact .all (hStop.trans hFlushing) (hCalm.isOpen.trans hClosed)

theorem parts (h : Said s k id c outcome said) : s.Parts k := by
  cases h with
  | nothing hStop => exact ⟨_, .inl hStop⟩
  | request hStop | all hStop => exact ⟨_, .inr ⟨_, hStop⟩⟩

theorem awaited {other : Nat} {last : Bool} (h : Said s k id c outcome said)
    (hStop : s.stop = some (.closing k (.awaiting other) last)) : id = other := by
  cases h with
  | nothing hReleasing => simp [hReleasing] at hStop
  | request hAwaiting => simp_all
  | all hFlushing => simp [hFlushing] at hStop

theorem flushed {shutdown : Except Lsp.Error Unit} {last : Bool} (h : Said s k id c outcome said)
    (hStop : s.stop = some (.closing k (.flushing shutdown) last)) :
    ∃ ending, outcome = some ending ∧ said = Lsp.Client.farewell id ending := by
  cases h with
  | nothing hReleasing => simp [hReleasing] at hStop
  | request hAwaiting => simp [hAwaiting] at hStop
  | all => exact ⟨_, rfl, rfl⟩

end Said

namespace Parting

/-- The client goes on being closed with its loop running. -/
theorem goes_on {heard : Nat → Option Rpc.Response} (hClient : s.client? k = some c)
    (hSaid : Said s k id c (settled? trace k id) said)
    (hWritten : queued ++ said.map (·.text) = writtenOn trace k ++ c.rpc.accepted)
    (hWhole : ∀ step ∈ trace, ¬ step.CutsOff k) (hNumbered : c.Numbered)
    (hClient' : t.client? k = some d) (hCalm : Lsp.Client.Calm heard c d)
    (hStill : d.rpc.phase = .running) (hStop : t.stop = s.stop)
    (hEvent : event ≠ .fire (.flush k))
    (hAwaits : c.Awaits id (settled? trace k id) →
      d.Awaits id ((settled? trace k id).or ((⟨s, event, t⟩ : Step).settles? k id))) :
    Parting k id queued (trace ++ [⟨s, event, t⟩]) t := by
  refine .running hClient' hStill ?_
    (written_of_flow hCalm.flow hClient hClient' hStill hWritten) ?_
  · rw [settled?_snoc, List.append_nil]
    exact hSaid.of_calm hCalm hStop (Step.settles?_of_not_open hClient) hNumbered hAwaits
  · intro step hMem
    rcases List.mem_append.mp hMem with hOld | hNew
    · exact hWhole step hOld
    · rw [List.mem_singleton.mp hNew]
      exact fun hCut => hEvent hCut.1

/-- Nothing comes to a client whose loop has left the connection. -/
theorem stays_left {ending : Rpc.Outcome} {rest : List String} (hTurn : Turn p s event t k messages)
    (hClient : s.client? k = some c) (hPhase : s.phase? k = some .finished)
    (hLeft : c.rpc.phase ≠ .running) (hSettled : settled? trace k id = some ending)
    (hWritten : queued ++ (Lsp.Client.farewell id ending).map (·.text) = writtenOn trace k ++ rest)
    (hRest : rest ≠ [] ↔ ∃ step ∈ trace, step.CutsOff k) :
    Parting k id queued (trace ++ [⟨s, event, t⟩]) t := by
  obtain ⟨d, hClient', hFlow, -⟩ := hTurn.flow hClient (by simp [hPhase])
  have hNothing : c.rpc.written d.rpc = [] ∧ d.rpc.phase ≠ .running := by
    cases hFlow with
    | took messages hAccepted hSame =>
      exact ⟨Rpc.Client.written_of_length_le (by simp [hAccepted]), hSame ▸ hLeft⟩
    | wrote _ hRunning => exact absurd hRunning hLeft
    | dropped _ hOutbox hNot => exact ⟨Rpc.Client.written_of_outbox_eq hOutbox, hNot⟩
  have hCut : ¬ (⟨s, event, t⟩ : Step).CutsOff k := by
    rintro ⟨-, other, hOther, hRunning, -⟩
    exact hLeft (Option.some.inj (hOther.symm.trans hClient) ▸ hRunning)
  have hSettled' : settled? (trace ++ [⟨s, event, t⟩]) k id = some ending := by
    rw [settled?_snoc, hSettled, Option.some_or]
  have hSame : writtenOn (trace ++ [⟨s, event, t⟩]) k = writtenOn trace k := by
    rw [writtenOn_snoc, Step.written_eq hClient hClient', hNothing.1, List.append_nil]
  rw [← hSame] at hWritten
  refine .left hClient' (hTurn.finished hPhase) hNothing.2 hSettled' hWritten ?_
  rw [hRest, exists_cutsOff_snoc]
  simp [hCut]

/-- The loop leaves the connection; what waits then is lost. -/
theorem leaves {ending : Rpc.Outcome} (hClient : s.client? k = some c)
    (hClient' : t.client? k = some d) (hPhase : t.phase? k = some .finished)
    (hLeft : d.rpc.phase ≠ .running) (hSettled : settled? trace k id = some ending)
    (hWritten : queued ++ (Lsp.Client.farewell id ending).map (·.text) =
      writtenOn trace k ++ c.rpc.accepted)
    (hWhole : ∀ step ∈ trace, ¬ step.CutsOff k) (hOutbox : d.rpc.outbox = c.rpc.outbox)
    (hCut : c.rpc.accepted ≠ [] ↔ (⟨s, event, t⟩ : Step).CutsOff k) :
    Parting k id queued (trace ++ [⟨s, event, t⟩]) t := by
  have hSettled' : settled? (trace ++ [⟨s, event, t⟩]) k id = some ending := by
    rw [settled?_snoc, hSettled, Option.some_or]
  have hSame : writtenOn (trace ++ [⟨s, event, t⟩]) k = writtenOn trace k := by
    rw [writtenOn_snoc, Step.written_eq hClient hClient', Rpc.Client.written_of_outbox_eq hOutbox,
      List.append_nil]
  rw [← hSame] at hWritten
  refine .left hClient' hPhase hLeft hSettled' hWritten ?_
  rw [hCut, exists_cutsOff_snoc]
  exact ⟨.inr, fun h => h.resolve_left fun ⟨step, hMem, hOld⟩ => hWhole step hMem hOld⟩

/-- The loop of a client that is being closed, whose connection is open, takes a step. -/
theorem loop_step {notifications : List Rpc.Notification} (hClient : s.client? k = some c)
    (hPhase : t.phase? k = some .finished) (hRunning : c.rpc.phase = .running)
    (hSaid : Said s k id c (settled? trace k id) said)
    (hWritten : queued ++ said.map (·.text) = writtenOn trace k ++ c.rpc.accepted)
    (hWhole : ∀ step ∈ trace, ¬ step.CutsOff k) (hNumbered : c.Numbered)
    (hLive : c.rpc.connection.IsLive)
    (hLoop : c.loopStep? (answer s.settings) = some (d, notifications))
    (hClient' : t.client? k = some d) (hStop : t.stop = s.stop) :
    Parting k id queued (trace ++ [⟨s, .loop k, t⟩]) t := by
  have hCalm := Lsp.Client.calm_loop hLoop
  obtain ⟨⟨rpc, effects⟩, hStep, hFollow⟩ := Option.map_eq_some_iff.mp hLoop
  have hRpc : d.rpc = rpc := (congrArg (·.1.rpc) hFollow).symm
  rcases Rpc.Client.loop_live hRunning hLive hStep with hStill | ⟨hClosed, hEmpty, hLeaves, -⟩
  · rw [← hRpc] at hStill
    refine goes_on hClient hSaid hWritten hWhole hNumbered hClient' hCalm hStill hStop (by simp) ?_
    intro hCall
    have hEnd := hCall.loop hNumbered (by simp [hStill]) hLoop
    cases hOutcome : settled? trace k id with
    | some outcome => simpa [hOutcome] using hEnd
    | none =>
      have hOpen := hCall.isOpen.mpr hOutcome
      simpa [hOutcome, Step.settles?, State.response?, hClient, hOpen] using hEnd
  · generalize hOutcome : settled? trace k id = outcome at hSaid
    cases hSaid with
    | nothing _ _ hOpen => simp [hOpen] at hClosed
    | request _ hOpen => simp [hOpen] at hClosed
    | all _ _ =>
      refine leaves hClient hClient' hPhase ?_ hOutcome hWritten hWhole ?_ ?_
      · rw [hRpc, hLeaves]
        simp [Rpc.Client.leave]
      · rw [hRpc, hLeaves]
        rfl
      · simp [hEmpty, Step.CutsOff]

/-- The stopping goes on: the request is sent, or its end is taken and the client is closed. -/
theorem stop_step (hClient : s.client? k = some c) (hRunning : c.rpc.phase = .running)
    (hSaid : Said s k id c (settled? trace k id) said)
    (hWritten : queued ++ said.map (·.text) = writtenOn trace k ++ c.rpc.accepted)
    (hWhole : ∀ step ∈ trace, ¬ step.CutsOff k) (hNumbered : c.Numbered)
    (hStep : s.stopStep? = some t) : Parting k id queued (trace ++ [⟨s, .stopStep, t⟩]) t := by
  obtain ⟨phase, hFace⟩ := State.face?_of_client? hClient
  have hSettled : settled? (trace ++ [⟨s, .stopStep, t⟩]) k id = settled? trace k id := by
    rw [settled?_snoc]
    simp [Step.settles?, State.response?]
  have hWhole' : ∀ step ∈ trace ++ [⟨s, .stopStep, t⟩], ¬ step.CutsOff k := by
    intro step hMem
    rcases List.mem_append.mp hMem with hOld | hNew
    · exact hWhole step hOld
    · rw [List.mem_singleton.mp hNew]
      simp [Step.CutsOff]
  have hAfter (d : Lsp.Client) (last : Bool) (progress : Lsp.Client.Closing) :
      (s.continueClosing k last d progress).client? k = some d :=
    State.client?_of_face? (State.face?_continueClosing_self hFace last d progress)
  generalize hOutcome : settled? trace k id = outcome at hSaid hSettled
  cases hSaid with
  | @nothing last hStop hInitialized hOpen hNext =>
    obtain ⟨d, hClose, hOpen', hRunning', -, hAwaits, hFlow⟩ :=
      Lsp.Client.beginClose_of_up hInitialized hOpen hRunning hNumbered
    rw [hNext] at hClose hAwaits hFlow
    obtain rfl : s.continueClosing k last d (.awaiting id) = t := by
      simpa [State.stopStep?, hStop, hClient, hClose] using hStep
    refine .running (hAfter ..) hRunning' ?_
      (written_of_flow hFlow hClient (hAfter ..) hRunning' hWritten) hWhole'
    rw [hSettled]
    exact .request rfl hOpen' hAwaits
  | @request last _ hStop hOpen hAwaits =>
    simp only [State.stopStep?, hStop, hClient] at hStep
    obtain ⟨⟨d, progress⟩, hClosing, rfl⟩ := Option.map_eq_some_iff.mp hStep
    obtain ⟨ending, shutdown, rfl, rfl, hClosed, hRunning', -, hFlow⟩ :=
      hAwaits.closeStep hOpen hRunning hClosing
    refine .running (hAfter ..) hRunning' ?_
      (written_of_flow hFlow hClient (hAfter ..) hRunning' hWritten) hWhole'
    rw [hSettled]
    exact .all rfl hClosed
  | all hStop hClosed =>
    simp [State.stopStep?, hStop, hClient, Lsp.Client.closeStep?, hRunning] at hStep

/-- Every step leaves a client that is being closed in its course. -/
theorem step {earlier : List Step} (h : Parting k id queued trace s)
    (hRun : Run p (.create p) earlier s) (hStep : s.next? p event = some t)
    (hOpen : (⟨s, event, t⟩ : Step).KeepsOpen k) :
    Parting k id queued (trace ++ [⟨s, event, t⟩]) t := by
  obtain ⟨messages, hTurn⟩ := State.next?_turn hStep k
  cases h with
  | left hClient hPhase hLeft hSettled hWritten hRest =>
    exact stays_left hTurn hClient hPhase hLeft hSettled hWritten hRest
  | @running c said hClient hRunning hSaid hWritten hWhole =>
    have hNumbered := hRun.numbered c hClient
    obtain ⟨stop, last, hStop, hTarget⟩ := hSaid.parts.ends
    have hPhase : t.phase? k = some .finished :=
      hTurn.finished (hRun.sound.finished k (.inl (.inr ⟨stop, last, hStop, hTarget⟩)))
    cases State.next?_touch hRun.sound hStep hSaid.parts hClient with
    | looped hEvent hLoop hAfter hSame =>
      subst hEvent
      exact loop_step hClient hPhase hRunning hSaid hWritten hWhole hNumbered
        (hOpen c hClient hRunning) hLoop hAfter hSame
    | @changed change hEvent hAfter hSame =>
      subst hEvent
      have hCalm : Lsp.Client.Calm (fun _ => none) c (c.onConnection (·.onto change)) :=
        Lsp.Client.calm_onConnection c change
      refine goes_on hClient hSaid hWritten hWhole hNumbered hAfter hCalm hRunning hSame
        (by simp) ?_
      intro hCall
      have hQuiet : (⟨s, .connection k change, t⟩ : Step).settles? k id = none := by
        simp [Step.settles?, State.response?]
      rw [hQuiet, Option.or_none]
      exact ⟨hCall.isOpen, hCall.kept⟩
    | @expired other last hEvent hAwaiting hAfter hSame =>
      subst hEvent
      obtain rfl := hSaid.awaited hAwaiting
      have hCalm : Lsp.Client.Calm (fun _ => none) c (c.expire id) :=
        Lsp.Client.calm_expire c id
      have hStill : (c.expire id).rpc.phase = .running := by
        simp only [Lsp.Client.expire, Rpc.Client.expire]
        split <;> exact hRunning
      refine goes_on hClient hSaid hWritten hWhole hNumbered hAfter hCalm hStill hSame (by simp) ?_
      intro hCall
      have hEnd := hCall.expire hNumbered
      cases hOutcome : settled? trace k id with
      | some outcome => simpa [hOutcome] using hEnd
      | none =>
        have hOpen := hCall.isOpen.mpr hOutcome
        simpa [hOutcome, Step.settles?, hClient, hOpen] using hEnd
    | @cutOff shutdown last hEvent hFlushing hAfter =>
      subst hEvent
      obtain ⟨ending, hSettled, rfl⟩ := hSaid.flushed hFlushing
      refine leaves hClient hAfter hPhase (by simp [Lsp.Client.abort, Lsp.Client.follow,
        Rpc.Client.abort]) hSettled hWritten hWhole rfl ?_
      simp [Step.CutsOff, hClient, hRunning]
    | stopped hEvent hStop =>
      subst hEvent
      exact stop_step hClient hRunning hSaid hWritten hWhole hNumbered hStop
    | aside hQuiet hEvent hAfter hSame =>
      have hCalm : Lsp.Client.Calm (fun _ => none) c c := Lsp.Client.calm_refl c
      refine goes_on hClient hSaid hWritten hWhole hNumbered hAfter hCalm hRunning hSame hEvent ?_
      intro hCall
      rw [hQuiet, Option.or_none]
      exact hCall

end Parting

/-- In a run in which the connection stays open, a client that is being closed stays in its
course. -/
theorem Run.parting {earlier later : List Step} (hRun : Run p (.create p) earlier s)
    (h : Parting k id queued [] s) (hLater : Run p s later t)
    (hOpen : ∀ step ∈ later, step.KeepsOpen k) : Parting k id queued later t := by
  induction hLater with
  | start => exact h
  | step prior last ih =>
    refine (ih fun step hMem => hOpen step (List.mem_append_left _ hMem)).step
      (hRun.trans prior) last (hOpen _ ?_)
    exact List.mem_append_right _ List.mem_cons_self

/-- The client of an attempt can be brought to leave its connection, which stays open until then,
with everything written. -/
def CanLeave (p : Profile) (s : State) (k : Nat) : Prop :=
  ∃ more t c, Run p s more t ∧ (∀ step ∈ more, step.KeepsOpen k ∧ ¬ step.CutsOff k) ∧
    t.client? k = some c ∧ c.rpc.phase ≠ .running

namespace CanLeave

theorem of_step (h : CanLeave p t k) (hStep : s.next? p event = some t)
    (hClient : s.client? k = some c) (hLive : c.rpc.connection.IsLive)
    (hEvent : event ≠ .fire (.flush k)) : CanLeave p s k := by
  obtain ⟨more, u, d, hRun, hAll, hLeft⟩ := h
  refine ⟨⟨s, event, t⟩ :: more, u, d, Run.trans (.step .start hStep) hRun, ?_, hLeft⟩
  intro step hMem
  rcases List.mem_cons.mp hMem with rfl | hMore
  · refine ⟨fun other hOther _ => ?_, fun hCut => hEvent hCut.1⟩
    exact Option.some.inj (hClient.symm.trans hOther) ▸ hLive
  · exact hAll step hMore

/-- A step of the loop of a session. -/
theorem loop_next? {notifications : List Rpc.Notification} (hClient : s.client? k = some c)
    (hLoop : c.loopStep? (answer s.settings) = some (d, notifications)) :
    ∃ t, s.next? p (.loop k) = some t ∧ t.client? k = some d := by
  refine ⟨{ s.withClient k d with output := notifications.foldl route s.output }, ?_,
    State.client?_withClient hClient⟩
  simp [State.next?, State.loopStep?, hClient, hLoop]

/-- A closed client writes what waits, one message after the other, and leaves. -/
theorem of_closed (hClient : s.client? k = some c) (hRunning : c.rpc.phase = .running)
    (hClosed : c.rpc.isOpen = false) (hLive : c.rpc.connection.IsLive) : CanLeave p s k := by
  generalize hWaiting : c.rpc.accepted = waiting
  induction waiting generalizing s c with
  | nil =>
    have hLoop : c.loopStep? (answer s.settings) = some (c.follow c.rpc.leave []) := by
      simp [Lsp.Client.loopStep?, Rpc.Client.loop_leaves hRunning hWaiting hClosed]
    obtain ⟨t, hStep, hAfter⟩ := loop_next? (p := p) hClient hLoop
    have hLeft : CanLeave p t k := ⟨[], t, _, .start, by simp, hAfter, by simp [Rpc.Client.leave]⟩
    exact hLeft.of_step hStep hClient hLive (by simp)
  | cons m rest ih =>
    have hLoop : c.loopStep? (answer s.settings) = some (c.follow
        { c.rpc with accepted := rest, connection := c.rpc.connection.put m } []) := by
      simp [Lsp.Client.loopStep?, Rpc.Client.loop_writes hRunning hWaiting hLive.1]
    obtain ⟨t, hStep, hAfter⟩ := loop_next? (p := p) hClient hLoop
    exact (ih hAfter hRunning hClosed (hLive.put m) rfl).of_step hStep hClient hLive (by simp)

/-- When the request has ended, the client is closed. -/
theorem of_ended {ending : Rpc.Outcome} {last : Bool} (hClient : s.client? k = some c)
    (hRunning : c.rpc.phase = .running) (hOpen : c.rpc.isOpen = true)
    (hStop : s.stop = some (.closing k (.awaiting id) last)) (hAwaits : c.Awaits id (some ending))
    (hLive : c.rpc.connection.IsLive) : CanLeave p s k := by
  obtain ⟨⟨d, progress⟩, hClosing⟩ : ∃ result, c.closeStep? (.awaiting id) = some result := by
    simp [Lsp.Client.closeStep?, Lsp.Client.takeEnd?, hAwaits.kept]
  have hStep : s.next? p .stopStep = some (s.continueClosing k last d progress) := by
    simp [State.next?, State.stopStep?, hStop, hClient, hClosing]
  obtain ⟨-, shutdown, -, rfl, hClosed, hRunning', hSame, -⟩ :=
    hAwaits.closeStep hOpen hRunning hClosing
  have hLeft : CanLeave p (s.continueClosing k last d (.flushing shutdown)) k :=
    of_closed (State.client?_withClient hClient) hRunning' hClosed (hSame ▸ hLive)
  exact hLeft.of_step hStep hClient hLive (by simp)

/-- The request ends at the latest when the time for it is over. -/
theorem of_request {last : Bool} (hClient : s.client? k = some c)
    (hRunning : c.rpc.phase = .running) (hOpen : c.rpc.isOpen = true)
    (hStop : s.stop = some (.closing k (.awaiting id) last)) (hAwaits : c.Awaits id outcome)
    (hNumbered : c.Numbered) (hLive : c.rpc.connection.IsLive) : CanLeave p s k := by
  cases outcome with
  | some ending => exact of_ended hClient hRunning hOpen hStop hAwaits hLive
  | none =>
    have hTimer : .shutdown k id ∈ s.timers := State.mem_timers.mpr (.inr ⟨_, hStop, rfl⟩)
    have hPending := hAwaits.isOpen.mpr rfl
    have hExpired : CanLeave p (s.fire (.shutdown k id)) k := by
      refine of_ended (State.client?_expireCall hClient) ?_ ?_ hStop (hAwaits.expire hNumbered) ?_
      · rwa [Lsp.Client.expire_of_mem hPending]
      · rwa [Lsp.Client.expire_of_mem hPending]
      · rwa [Lsp.Client.expire_of_mem hPending]
    exact hExpired.of_step (State.fire_next? hTimer) hClient hLive (by simp)

/-- The request is sent. -/
theorem of_releasing {last : Bool} (hClient : s.client? k = some c)
    (hRunning : c.rpc.phase = .running) (hOpen : c.rpc.isOpen = true)
    (hInitialized : c.initialized = true) (hStop : s.stop = some (.releasing k last))
    (hNumbered : c.Numbered) (hLive : c.rpc.connection.IsLive) : CanLeave p s k := by
  obtain ⟨d, hClose, hOpen', hRunning', hSame, hAwaits, -⟩ :=
    Lsp.Client.beginClose_of_up hInitialized hOpen hRunning hNumbered
  have hStep : s.next? p .stopStep =
      some (s.continueClosing k last d (.awaiting c.rpc.nextId)) := by
    simp [State.next?, State.stopStep?, hStop, hClient, hClose]
  have hNumbered' : d.Numbered := by
    obtain ⟨-, -, hSends⟩ := Lsp.Client.beginClose_sends hClose
    exact hSends.numbered ⟨hNumbered.rpc, hNumbered.ended⟩
  have hLeft : CanLeave p (s.continueClosing k last d (.awaiting c.rpc.nextId)) k :=
    of_request (State.client?_withClient hClient) hRunning' hOpen' rfl hAwaits hNumbered'
      (hSame ▸ hLive)
  exact hLeft.of_step hStep hClient hLive (by simp)

end CanLeave

theorem Said.canLeave (hSaid : Said s k id c outcome said) (hClient : s.client? k = some c)
    (hRunning : c.rpc.phase = .running) (hNumbered : c.Numbered)
    (hLive : c.rpc.connection.IsLive) : CanLeave p s k := by
  cases hSaid with
  | nothing hStop hInitialized hOpen =>
    exact .of_releasing hClient hRunning hOpen hInitialized hStop hNumbered hLive
  | request hStop hOpen hAwaits =>
    exact .of_request hClient hRunning hOpen hStop hAwaits hNumbered hLive
  | all _ hClosed => exact .of_closed hClient hRunning hClosed hLive

/-- A session that is running is taken out of the slot, and nothing has been said to it yet. -/
theorem Run.begins_parting {earlier : List Step} (hRun : Run p (.create p) earlier s)
    (hRunning : s.status = .running) (hSlot : s.slot = some k) (hStop : s.stop = some .taking)
    (hTaken : s.next? p .stopStep = some t) (hClient : t.client? k = some c)
    (hLoop : c.rpc.phase = .running) : Parting k c.rpc.nextId c.rpc.accepted [] t := by
  obtain ⟨c', hClient', hInitialized, hOpen⟩ := hRun.placed.up hRunning k hSlot
  have hAfter : t = s.takeSlot := by
    simp only [State.next?, State.stopStep?, hStop] at hTaken
    split at hTaken
    · exact (Option.some.inj hTaken).symm
    · cases hTaken
  subst hAfter
  rw [State.client?_eq, State.face?_takeSlot, ← State.client?_eq, hClient'] at hClient
  obtain rfl := Option.some.inj hClient
  rcases State.takeSlot_cases s with ⟨j, hIn, hReleasing, -⟩ | ⟨hEmpty, -⟩
  · obtain rfl := Option.some.inj (hSlot.symm.trans hIn)
    have hAfter : s.takeSlot.client? k = some c' := by
      rw [State.client?_eq, State.face?_takeSlot, ← State.client?_eq, hClient']
    have hSaid : Said s.takeSlot k c'.rpc.nextId c' (settled? [] k c'.rpc.nextId) [] :=
      .nothing hReleasing hInitialized hOpen rfl
    exact .running hAfter hLoop hSaid (by simp [writtenOn]) (by simp)
  · cases hSlot.symm.trans hEmpty

/-- What was written when the client has left the connection. -/
theorem Parting.ends (h : Parting k id queued trace s) (hClient : s.client? k = some c)
    (hLeft : c.rpc.phase ≠ .running) :
    ∃ outcome, settled? trace k id = some outcome ∧
      (writtenOn trace k = queued ++ [(Rpc.Utterance.call id Lsp.methods.shutdown none).text,
          (Rpc.Utterance.notice Lsp.methods.exit none).text] ↔
        outcome.isProper = true ∧ ∀ step ∈ trace, ¬ step.CutsOff k) ∧
      ((∀ step ∈ trace, ¬ step.CutsOff k) →
        writtenOn trace k = queued ++ (Lsp.Client.farewell id outcome).map (·.text)) := by
  cases h with
  | running hClient' hRunning =>
    exact absurd hRunning (Option.some.inj (hClient.symm.trans hClient') ▸ hLeft)
  | @left d outcome rest _ _ _ hSettled hWritten hRest =>
    have hLost : rest = [] ↔ ∀ step ∈ trace, ¬ step.CutsOff k := by
      rw [← not_iff_not, ← ne_eq, hRest]
      simp
    refine ⟨outcome, hSettled, ?_, fun hWhole => ?_⟩
    · rw [← hLost]
      constructor
      · intro hBoth
        rw [hBoth, List.append_assoc, List.append_cancel_left_eq] at hWritten
        cases hProper : outcome.isProper <;> simp_all [Lsp.Client.farewell]
      · rintro ⟨hProper, rfl⟩
        simpa [Lsp.Client.farewell, hProper] using hWritten.symm
    · rw [hWritten, hLost.mpr hWhole, List.append_nil]

/-- When the stopping takes a session that is up, and its connection stays open, its client can be
brought to leave the connection, and once it has left, the shutdown request has come to an outcome.
Behind what waited before, the shutdown request and the notification of the exit are both written,
exactly if this outcome is a proper answer and the client was not cut off while messages waited.
When it was not cut off, what is written ends with the request if there was no proper answer. -/
theorem exit_follows_shutdown_iff {earlier later : List Step} (hRun : Run p (.create p) earlier s)
    (hRunning : s.status = .running) (hSlot : s.slot = some k) (hStop : s.stop = some .taking)
    (hTaken : s.next? p .stopStep = some t) (hClient : t.client? k = some c)
    (hLoop : c.rpc.phase = .running) (hLater : Run p t later u)
    (hOpen : ∀ step ∈ later, step.KeepsOpen k) :
    ∃ d, u.client? k = some d ∧
      (d.rpc.phase = .running → d.rpc.connection.IsLive → CanLeave p u k) ∧
      (d.rpc.phase ≠ .running → ∃ outcome, settled? later k c.rpc.nextId = some outcome ∧
        (writtenOn later k = c.rpc.accepted ++
            [(Rpc.Utterance.call c.rpc.nextId Lsp.methods.shutdown none).text,
              (Rpc.Utterance.notice Lsp.methods.exit none).text] ↔
          outcome.isProper = true ∧ ∀ step ∈ later, ¬ step.CutsOff k) ∧
        ((∀ step ∈ later, ¬ step.CutsOff k) → writtenOn later k =
          c.rpc.accepted ++ (Lsp.Client.farewell c.rpc.nextId outcome).map (·.text))) := by
  have hTook : Run p (.create p) (earlier ++ [⟨s, .stopStep, t⟩]) t := .step hRun hTaken
  have hBegins := hRun.begins_parting hRunning hSlot hStop hTaken hClient hLoop
  have hParting := hTook.parting hBegins hLater hOpen
  obtain ⟨d, hClient', hRuns⟩ : ∃ d, u.client? k = some d ∧ (d.rpc.phase = .running →
      ∃ outcome said, Said u k c.rpc.nextId d outcome said) := by
    cases hParting with
    | running hClient' _ hSaid => exact ⟨_, hClient', fun _ => ⟨_, _, hSaid⟩⟩
    | left hClient' _ hLeft => exact ⟨_, hClient', fun hStill => absurd hStill hLeft⟩
  refine ⟨d, hClient', fun hStill hLive => ?_, hParting.ends hClient'⟩
  obtain ⟨outcome, said, hSaid⟩ := hRuns hStill
  exact hSaid.canLeave hClient' hStill ((hTook.trans hLater).numbered _ hClient') hLive

/-- A session comes up and is about to be taken out of its slot. -/
def aboutToTake : Option (List Step × State) :=
  (State.create plainProfile).follow? plainProfile
    [.start (.ofString "/server") none, .launched 0 (.ok (.fresh, none)), .task 0, .loop 0,
      .connection 0 (answerCall 1 "\x7b\"capabilities\":\x7b\x7d\x7d"), .loop 0, .loop 0,
      .task 0, .task 0, .task 0, .loop 0, .loop 0, .stop, .stopStep]

/-- It is taken, and its server refuses to shut down. -/
def refusedShutdown : Option (List Step × State) :=
  let refusal := "\x7b\"jsonrpc\":\"2.0\",\"id\":2," ++
    "\"error\":\x7b\"code\":-32603,\"message\":\"no\"\x7d\x7d"
  aboutToTake.bind fun (_, s) => s.takeSlot.follow? plainProfile
    [.stopStep, .loop 0, .connection 0 (·.deliver (Utf8.encode (Frame.encode refusal).toList)),
      .loop 0, .loop 0, .stopStep, .loop 0]

theorem aboutToTake_shown :
    aboutToTake.map (fun (_, s) => (s.status, s.slot, s.slotFree,
      s.stop.any fun stop => stop matches .taking)) = some (.running, some 0, true, true) ∧
    aboutToTake.map (fun (_, s) => (s.takeSlot.client? 0).map fun c =>
      (c.rpc.phase, c.rpc.nextId)) = some (some (.running, 2)) := by
  decide +kernel

theorem refusedShutdown_shown :
    refusedShutdown.map (fun (later, u) => (decide (∀ step ∈ later, step.KeepsOpen 0),
      (u.client? 0).map (·.rpc.phase), (settled? later 0 2).map (·.isProper))) =
      some (true, some .closing, some false) := by
  decide +kernel

/-- What comes before the session is taken, and what comes after it. -/
theorem refusedShutdown_run :
    ∃ earlier s c later u, aboutToTake = some (earlier, s) ∧ refusedShutdown = some (later, u) ∧
      Run plainProfile (.create plainProfile) earlier s ∧ s.status = .running ∧
      s.slot = some 0 ∧ s.stop = some .taking ∧
      s.next? plainProfile .stopStep = some s.takeSlot ∧ s.takeSlot.client? 0 = some c ∧
      c.rpc.phase = .running ∧ Run plainProfile s.takeSlot later u ∧
      (∀ step ∈ later, step.KeepsOpen 0) ∧
      (∃ d, u.client? 0 = some d ∧ d.rpc.phase ≠ .running) ∧
      (settled? later 0 c.rpc.nextId).map (·.isProper) = some false := by
  obtain ⟨⟨earlier, s⟩, hEval, hShown⟩ := Option.map_eq_some_iff.mp aboutToTake_shown.1
  obtain ⟨⟨earlier', s'⟩, hEval', hTaken⟩ := Option.map_eq_some_iff.mp aboutToTake_shown.2
  obtain ⟨rfl, rfl⟩ := Prod.mk.inj (Option.some.inj (hEval.symm.trans hEval'))
  obtain ⟨⟨later, u⟩, hLaterEval, hLaterShown⟩ := Option.map_eq_some_iff.mp refusedShutdown_shown
  simp only [Prod.mk.injEq] at hShown hLaterShown
  obtain ⟨hRunning, hSlot, hFree, hAny⟩ := hShown
  obtain ⟨hOpen, hLeft, hRefused⟩ := hLaterShown
  obtain ⟨c, hClient, hUp⟩ := Option.map_eq_some_iff.mp hTaken
  obtain ⟨hLoop, hNext⟩ := Prod.mk.inj hUp
  have hStop : s.stop = some .taking := by
    cases hStop : s.stop with
    | none => simp [hStop] at hAny
    | some stop => cases stop <;> simp_all
  obtain ⟨d, hClient', hPhase⟩ := Option.map_eq_some_iff.mp hLeft
  have hLater : Run plainProfile s.takeSlot later u := by
    unfold refusedShutdown at hLaterEval
    rw [hEval, Option.bind_some] at hLaterEval
    exact State.run_of_follow? hLaterEval
  exact ⟨earlier, s, c, later, u, hEval, hLaterEval, State.run_of_follow? hEval, hRunning, hSlot,
    hStop, by simp [State.next?, State.stopStep?, hStop, hFree], hClient, hLoop, hLater,
    of_decide_eq_true hOpen, ⟨d, hClient', by simp [hPhase]⟩, hNext ▸ hRefused⟩

theorem refusedShutdown_left :
    ∃ earlier s c later u, aboutToTake = some (earlier, s) ∧ refusedShutdown = some (later, u) ∧
      s.status = .running ∧ s.slot = some 0 ∧ s.stop = some .taking ∧
      s.next? plainProfile .stopStep = some s.takeSlot ∧ s.takeSlot.client? 0 = some c ∧
      c.rpc.phase = .running ∧ (∀ step ∈ later, step.KeepsOpen 0) ∧
      ∃ d, u.client? 0 = some d ∧
        (d.rpc.phase = .running → d.rpc.connection.IsLive → CanLeave plainProfile u 0) ∧
        (d.rpc.phase ≠ .running → ∃ outcome, settled? later 0 c.rpc.nextId = some outcome ∧
          (writtenOn later 0 = c.rpc.accepted ++
              [(Rpc.Utterance.call c.rpc.nextId Lsp.methods.shutdown none).text,
                (Rpc.Utterance.notice Lsp.methods.exit none).text] ↔
            outcome.isProper = true ∧ ∀ step ∈ later, ¬ step.CutsOff 0) ∧
          ((∀ step ∈ later, ¬ step.CutsOff 0) → writtenOn later 0 =
            c.rpc.accepted ++ (Lsp.Client.farewell c.rpc.nextId outcome).map (·.text))) := by
  obtain ⟨earlier, s, c, later, u, hEval, hLaterEval, hRun, hRunning, hSlot, hStop, hTaken, hClient,
    hLoop, hLater, hOpen, -⟩ := refusedShutdown_run
  exact ⟨earlier, s, c, later, u, hEval, hLaterEval, hRunning, hSlot, hStop, hTaken, hClient, hLoop,
    hOpen, exit_follows_shutdown_iff hRun hRunning hSlot hStop hTaken hClient hLoop hLater hOpen⟩

/-- A server that answers the shutdown request with an error is not told to exit. -/
theorem exit_left_out :
    ¬ ∀ earlier s t k c later u, Run plainProfile (.create plainProfile) earlier s →
      s.status = .running → s.slot = some k → s.stop = some .taking →
      s.next? plainProfile .stopStep = some t → t.client? k = some c → c.rpc.phase = .running →
      Run plainProfile t later u → (∀ step ∈ later, step.KeepsOpen k) →
      ∀ d, u.client? k = some d → d.rpc.phase ≠ .running →
        writtenOn later k = c.rpc.accepted ++
          [(Rpc.Utterance.call c.rpc.nextId Lsp.methods.shutdown none).text,
            (Rpc.Utterance.notice Lsp.methods.exit none).text] := by
  intro hAlways
  obtain ⟨earlier, s, c, later, u, -, -, hRun, hRunning, hSlot, hStop, hTaken, hClient, hLoop,
    hLater, hOpen, ⟨d, hClient', hLeft⟩, hRefused⟩ := refusedShutdown_run
  have hBoth := hAlways _ _ _ _ _ _ _ hRun hRunning hSlot hStop hTaken hClient hLoop hLater hOpen
    d hClient' hLeft
  have hTook : Run plainProfile (.create plainProfile) (earlier ++ [⟨s, .stopStep, s.takeSlot⟩])
      s.takeSlot := .step hRun hTaken
  have hBegins := hRun.begins_parting hRunning hSlot hStop hTaken hClient hLoop
  obtain ⟨outcome, hSettled, hIff, -⟩ :=
    (hTook.parting hBegins hLater hOpen).ends hClient' hLeft
  simp [hSettled, (hIff.mp hBoth).1] at hRefused

end EditorBridge.Session
