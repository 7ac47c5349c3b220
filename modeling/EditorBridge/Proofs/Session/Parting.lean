import EditorBridge.Proofs.Lsp.Awaited
import EditorBridge.Proofs.Session.Verdicts
/-!
How a session that is up parts from its server. While its client is being closed nobody else uses
it, so a step either is one of the loop, of the connection, of the clock or of the stopping, or it
leaves the client as it is.
-/
namespace EditorBridge.Session

/-- The outcome of a call that is open, when a step brings it: its response is received, or its time
is over. -/
def Step.settles? (step : Step) (k id : Nat) : Option Rpc.Outcome :=
  if (step.before.client? k).any (·.rpc.pending.contains id) then
    match step.event with
    | .fire (.shutdown j other) => if j = k ∧ other = id then some .timedOut else none
    | event => (step.before.response? event k id).map .answered
  else none

/-- Is the client of an attempt being closed? -/
def State.Parts (s : State) (k : Nat) : Prop :=
  ∃ last, s.stop = some (.releasing k last) ∨ ∃ progress, s.stop = some (.closing k progress last)

/-- What a step can do to a client that is being closed. -/
inductive Touch (s : State) (event : Event) (t : State) (k : Nat) (c : Lsp.Client) : Prop where
  | looped {d : Lsp.Client} {notifications : List Rpc.Notification} (hEvent : event = .loop k)
      (hLoop : c.loopStep? (answer s.settings) = some (d, notifications))
      (hAfter : t.client? k = some d) (hStop : t.stop = s.stop)
  | changed {change : Stream.Transport → Stream.Transport} (hEvent : event = .connection k change)
      (hAfter : t.client? k = some (c.onConnection (·.onto change))) (hStop : t.stop = s.stop)
  | expired {id : Nat} {last : Bool} (hEvent : event = .fire (.shutdown k id))
      (hAwaiting : s.stop = some (.closing k (.awaiting id) last))
      (hAfter : t.client? k = some (c.expire id)) (hStop : t.stop = s.stop)
  | cutOff {shutdown : Except Lsp.Error Unit} {last : Bool} (hEvent : event = .fire (.flush k))
      (hFlushing : s.stop = some (.closing k (.flushing shutdown) last))
      (hAfter : t.client? k = some c.abort)
  | stopped (hEvent : event = .stopStep) (hStep : s.stopStep? = some t)
  | aside (hQuiet : ∀ id, (⟨s, event, t⟩ : Step).settles? k id = none)
      (hEvent : event ≠ .fire (.flush k)) (hAfter : t.client? k = some c) (hStop : t.stop = s.stop)

variable {p : Profile} {s t : State} {event : Event} {k id : Nat} {trace : List Step}
  {messages : List Rpc.Utterance}

/-- What is neither a step of the loop nor one of the clock settles no call. -/
theorem Touch.other {c : Lsp.Client} (hLoop : event ≠ .loop k)
    (hFire : ∀ timer, event ≠ .fire timer) (hAfter : t.client? k = some c)
    (hStop : t.stop = s.stop) : Touch s event t k c := by
  refine .aside (fun id => ?_) (hFire _) hAfter hStop
  cases event <;> simp_all [Step.settles?, State.response?]

namespace State

theorem Parts.ends (h : s.Parts k) :
    ∃ stop last, s.stop = some stop ∧ stop.target? = some (k, last) := by
  obtain ⟨last, hStop | ⟨progress, hStop⟩⟩ := h <;> exact ⟨_, last, hStop, rfl⟩

/-- The clock concerns the client only by the span that runs for it. -/
theorem fire_touch {timer : Timer} (hTimer : timer ∈ s.timers)
    (hFinished : s.phase? k = some .finished) (hParts : s.Parts k) {c : Lsp.Client}
    (hClient : s.client? k = some c) : Touch s (.fire timer) (s.fire timer) k c := by
  obtain ⟨phase, hFace⟩ := face?_of_client? hClient
  rcases mem_timers.mp hTimer with ⟨j, id, hPhase, rfl⟩ | ⟨stop, hStop, hOfStop⟩
  · have hOther : j ≠ k := by
      rintro rfl
      rw [hFinished] at hPhase
      cases hPhase
    have hAfter : (s.fire (.handshake j id)).face? k = s.face? k := by
      rw [fire, face?_expireCall, if_neg hOther]
    refine .aside (fun id => by simp [Step.settles?, response?]) (by simp) ?_ rfl
    rw [client?_eq, hAfter, ← client?_eq, hClient]
  · obtain ⟨last, hReleasing | ⟨progress, hClosing⟩⟩ := hParts
    · obtain rfl := Option.some.inj (hStop.symm.trans hReleasing)
      cases hOfStop
    · obtain rfl := Option.some.inj (hStop.symm.trans hClosing)
      cases progress with
      | awaiting id =>
        obtain rfl := Option.some.inj hOfStop
        have hAfter := face?_expireCall s k id k
        rw [if_pos rfl, hFace] at hAfter
        exact .expired rfl hStop (client?_of_face? hAfter) rfl
      | flushing shutdown =>
        obtain rfl := Option.some.inj hOfStop
        have hFire : s.fire (.flush k) = s.continueClosing k last c.abort (.closed shutdown) := by
          simp [fire, hStop, hClient, Lsp.Client.flushOver]
        have hAfter := face?_continueClosing_self hFace last c.abort (.closed shutdown)
        exact .cutOff rfl hStop (hFire ▸ client?_of_face? hAfter)
      | closed shutdown => cases hOfStop

/-- The task of the attempt itself is done, and no other task touches it. -/
theorem Parts.task_keeps (hParts : s.Parts k) (hSound : s.Sound) (h : s.next? p event = some t)
    {c : Lsp.Client} (hClient : s.client? k = some c) {j : Nat} (hTask : event.task? = some j) :
    t.client? k = some c ∧ t.stop = s.stop := by
  obtain ⟨stop, last, hStop, hTarget⟩ := hParts.ends
  have hFinished := hSound.finished k (.inl (.inr ⟨stop, last, hStop, hTarget⟩))
  have hDown : s.status.isUp = false := (hSound.emptied _ _ hStop hTarget).2
  have hOther : k ≠ j := by
    rintro rfl
    obtain ⟨phase, hPhase, hNot⟩ := unfinished_of_move h hTask
    exact hNot (Option.some.inj (hPhase.symm.trans hFinished))
  generalize hError : s.taskError? p event = error
  cases hError ▸ task_move h hTask with
  | onward hAside | failed _ hAside =>
    refine ⟨?_, hAside.stop⟩
    rw [client?_eq, face?_of_aside hAside hOther, ← client?_eq, hClient]
  | promoted _ hStarting => simp [hStarting, Status.isUp] at hDown

/-- While everything that was to be forwarded is done with, nobody takes the lock or holds it. -/
theorem AllDone.none_forwarded (hDone : s.AllDone) :
    s.next? p (.acquire id) = none ∧ s.next? p (.deliver id) = none := by
  constructor
  · refine Option.eq_none_iff_forall_ne_some.mpr fun t h => ?_
    simp only [next?, acquire?] at h
    split at h
    · rename_i hFind
      obtain ⟨result, hResult⟩ := hDone _ (List.mem_of_find?_eq_some hFind)
      cases hResult
    · cases h
  · refine Option.eq_none_iff_forall_ne_some.mpr fun t h => ?_
    obtain ⟨j, -, -, -, -, ⟨f, hMem, hLock⟩, -⟩ := deliver_eq h
    obtain ⟨result, hResult⟩ := hDone f hMem
    cases hLock.symm.trans hResult

theorem loop_touch {j : Nat} (h : s.next? p (.loop j) = some t) {c : Lsp.Client}
    (hClient : s.client? k = some c) : Touch s (.loop j) t k c := by
  obtain ⟨c', hClient', hLoop⟩ := Option.bind_eq_some_iff.mp h
  obtain ⟨⟨d, notifications⟩, hStep, rfl⟩ := Option.map_eq_some_iff.mp hLoop
  obtain ⟨phase, hFace⟩ := face?_of_client? hClient
  by_cases hSelf : j = k
  · subst hSelf
    obtain rfl := Option.some.inj (hClient'.symm.trans hClient)
    have hAfter : (s.withClient j d).client? j = some d := by
      rw [client?_eq, face?_withClient, if_pos rfl, hFace]
      rfl
    exact .looped rfl hStep hAfter rfl
  · have hAfter : (s.withClient j d).client? k = some c := by
      rw [client?_eq, face?_withClient, if_neg hSelf, ← client?_eq, hClient]
    exact .other (by simp [hSelf]) (by simp) hAfter rfl

theorem connection_touch {j : Nat} {change : Stream.Transport → Stream.Transport} {c : Lsp.Client}
    (hClient : s.client? k = some c) :
    Touch s (.connection j change) (s.onConnection j (·.onto change)) k c := by
  obtain ⟨phase, hFace⟩ := face?_of_client? hClient
  have hAfter := face?_onConnection s j change k
  by_cases hSelf : j = k
  · subst hSelf
    rw [if_pos rfl, hFace] at hAfter
    exact .changed rfl (client?_of_face? hAfter) rfl
  · rw [if_neg hSelf, hFace] at hAfter
    exact .other (by simp) (by simp) (client?_of_face? hAfter) rfl

/-- Every step is one of these while a client is being closed. -/
theorem next?_touch (hSound : s.Sound) (h : s.next? p event = some t) (hParts : s.Parts k)
    {c : Lsp.Client} (hClient : s.client? k = some c) : Touch s event t k c := by
  obtain ⟨stop, last, hStop, hTarget⟩ := hParts.ends
  have hFinished := hSound.finished k (.inl (.inr ⟨stop, last, hStop, hTarget⟩))
  have hDone : s.AllDone := hSound.allDone (by simp [hStop])
  have hRest : ¬ s.atRest = true := fun hRest => by simp [stop_of_atRest hRest] at hStop
  have hSame (hAfter : t.face? k = s.face? k) : t.client? k = some c := by
    rw [client?_eq, hAfter, ← client?_eq, hClient]
  cases event with
  | start => simp only [next?, if_neg hRest] at h; cases h
  | stop => simp only [next?, if_neg hRest] at h; cases h
  | changeConfiguration | forward => simp [next?, hStop] at h
  | launched | task =>
    obtain ⟨hAfter, hStop⟩ := hParts.task_keeps hSound h hClient rfl
    exact .other (by simp) (by simp) hAfter hStop
  | stopStep => exact .stopped rfl h
  | acquire => cases hDone.none_forwarded.1.symm.trans h
  | deliver => cases hDone.none_forwarded.2.symm.trans h
  | takeResult id =>
    obtain ⟨⟨u, result⟩, hTaken, rfl⟩ := Option.map_eq_some_iff.mp h
    unfold takeResult? at hTaken
    split at hTaken <;> cases hTaken
    exact .other (by simp) (by simp) hClient rfl
  | loop => exact loop_touch h hClient
  | connection =>
    obtain rfl := Option.some.inj h
    exact connection_touch hClient
  | sawExit | errors | errorsEnd =>
    obtain rfl := Option.some.inj h
    exact .other (by simp) (by simp) (hSame (face?_onProcess ..))
      (onProcess_noticed ..).steady.stop
  | tellExit j =>
    obtain ⟨m, -, hTell⟩ := Option.bind_eq_some_iff.mp h
    obtain ⟨⟨m', exit⟩, -, rfl⟩ := Option.map_eq_some_iff.mp hTell
    refine .other (by simp) (by simp) (hSame ?_)
      ((onAttempt_noticed ..).trans (exited_noticed ..)).steady.stop
    exact (face?_exited ..).trans (face?_onAttempt_of_same _ _ (by simp) _)
  | exit j code =>
    simp only [next?] at h
    split at h
    · obtain rfl := Option.some.inj h
      exact .other (by simp) (by simp) (hSame (face?_exited ..))
        (exited_noticed ..).steady.stop
    · cases h
  | line text =>
    obtain rfl := Option.some.inj h
    exact .other (by simp) (by simp) hClient rfl
  | obey j =>
    obtain rfl := Option.some.inj h
    exact .other (by simp) (by simp)
      (hSame (face?_onAttempt_of_same _ _ (by simp) _)) rfl
  | fire timer =>
    simp only [next?] at h
    split at h
    · obtain rfl := Option.some.inj h
      exact fire_touch ‹_› hFinished hParts hClient
    · cases h

end State

theorem rel_closed_numbered {client client' : Option Lsp.Client}
    (h : client.Rel Lsp.Client.Closed client') (hNumbered : ∀ c, client = some c → c.Numbered) :
    ∀ d, client' = some d → d.Numbered := by
  rintro d rfl
  cases h with
  | some hClosed => exact hClosed.numbered (hNumbered _ rfl)

/-- Every turn keeps the numbers of the calls of a client apart from the next one. -/
theorem Turn.numbered (hTurn : Turn p s event t k messages)
    (h : ∀ c, s.client? k = some c → c.Numbered) {d : Lsp.Client}
    (hClient : t.client? k = some d) : d.Numbered := by
  have hBefore {phase : Phase} {c : Lsp.Client} (hFace : s.face? k = some (phase, some c)) :
      c.Numbered := h c (State.client?_of_face? hFace)
  have hAfter {phase : Phase} {client : Option Lsp.Client}
      (hFace : t.face? k = some (phase, client)) : client = some d :=
    (State.client?_of_face? hFace).symm.trans hClient
  cases hTurn with
  | absent _ hFace => simp [State.client?_eq, hFace] at hClient
  | begun _ _ hFace => cases hAfter hFace
  | connected _ hFace =>
    obtain rfl := Option.some.inj (hAfter hFace)
    exact Lsp.Client.numbered_create _
  | calm hFace hFace' hCalm =>
    obtain rfl := hAfter hFace'
    cases hCalm with
    | some hCalm => exact hCalm.numbered (hBefore hFace)
  | asked hFace hAsk hFace' =>
    obtain rfl := Option.some.inj (hAfter hFace')
    exact (Lsp.Client.askHandshake_sends hAsk).2.1.numbered (hBefore hFace)
  | greeted hFace hTake hFinish hFace' =>
    obtain rfl := Option.some.inj (hAfter hFace')
    obtain ⟨-, -, e, hSends, hRpc, hEnded⟩ := Lsp.Client.finishHandshake_sends hFinish
    have hNumbered :=
      hSends.numbered ((Lsp.Client.takeEnd_unsaid hTake).1.numbered (hBefore hFace))
    exact ⟨hRpc ▸ hNumbered.rpc, hRpc ▸ hEnded ▸ hNumbered.ended⟩
  | configured hFace hTell hFace' =>
    obtain rfl := Option.some.inj (hAfter hFace')
    exact (Lsp.Client.tellInitialized_sends hTell).2.numbered (hBefore hFace)
  | placed _ _ hFace hFace' =>
    obtain rfl := hAfter hFace'
    exact hBefore hFace
  | gaveUp _ _ _ hFace hFace' hClosed | closed _ hFace hFace' hClosed =>
    refine rel_closed_numbered hClosed ?_ d (hAfter hFace')
    rintro c rfl
    exact hBefore hFace
  | told _ _ hFace _ _ hSends hFace' =>
    obtain rfl := Option.some.inj (hAfter hFace')
    exact hSends.numbered (hBefore hFace)
  | shutDown _ hFace hClose hFace' =>
    obtain rfl := Option.some.inj (hAfter hFace')
    obtain ⟨hRpc, hEnded⟩ := hBefore hFace
    exact (Lsp.Client.beginClose_sends hClose).2.2.numbered ⟨hRpc, hEnded⟩
  | left _ hFace hLeaves hFace' =>
    obtain rfl := Option.some.inj (hAfter hFace')
    exact hLeaves.numbered (hBefore hFace)

theorem Run.numbered (hRun : Run p (.create p) trace s) :
    ∀ c, s.client? k = some c → c.Numbered := by
  induction hRun with
  | start => exact fun c hClient => by simp [State.client?, State.create] at hClient
  | step prior last ih =>
    obtain ⟨messages, hTurn⟩ := State.next?_turn last k
    exact fun c => hTurn.numbered ih

end EditorBridge.Session
