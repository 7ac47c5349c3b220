import EditorBridge.Proofs.Session.Lifecycle
/-!
Stopping can always be brought to its end. Whatever it waits for comes about when the launcher
returns or the time for it is over: a start task that is joined goes on from phase to phase, a
request is answered or given up, and the rest is given up in the end.
-/
namespace EditorBridge.Session

/-- A run that goes on while the manager is being stopped. -/
structure StopRun (p : Profile) (s : State) (trace : List Step) (t : State) : Prop where
  run : Run p s trace t
  during : ∀ step ∈ trace, step.before.stop.isSome = true

/-- The stopping can be brought to its end. -/
def Returns (p : Profile) (s : State) : Prop := ∃ trace t, StopRun p s trace t ∧ t.stop = none

/-- How many phases are still to come. -/
def Phase.rank : Phase → Nat
  | .launching => 5
  | .connected => 4
  | .handshaking _ => 3
  | .configuring => 2
  | .promoting => 1
  | .finished => 0

variable {p : Profile} {s t u : State} {event : Event} {k id : Nat} {last : Bool}
  {trace : List Step}

theorem Phase.rank_pos {phase : Phase} (h : phase ≠ .finished) : 0 < phase.rank := by
  cases phase with
  | finished => exact absurd rfl h
  | _ => exact Nat.succ_pos _

theorem Returns.of_none (h : s.stop = none) : Returns p s := ⟨[], s, ⟨.start, by simp⟩, h⟩

theorem Returns.of_step (h : Returns p t) (hStop : s.stop.isSome = true)
    (hStep : s.next? p event = some t) : Returns p s := by
  obtain ⟨trace, u, ⟨hRun, hDuring⟩, hNone⟩ := h
  refine ⟨⟨s, event, t⟩ :: trace, u, ⟨Run.trans (.step .start hStep) hRun, fun step hMem => ?_⟩,
    hNone⟩
  rcases List.mem_cons.mp hMem with rfl | hLater
  · exact hStop
  · exact hDuring step hLater

namespace State

theorem fire_next? {timer : Timer} (h : timer ∈ s.timers) :
    s.next? p (.fire timer) = some (s.fire timer) := if_pos h

theorem terminating_returns (hStop : s.stop = some (.terminating k last)) : Returns p s := by
  have hTimer : .grace k ∈ s.timers := mem_timers.mpr (.inr ⟨_, hStop, rfl⟩)
  refine .of_step (.of_none ?_) (by simp [hStop]) (fire_next? hTimer)
  simp [fire, hStop, finishStop]

theorem terminate_returns (s : State) (k : Nat) (last : Bool) : Returns p (s.terminate k last) := by
  unfold terminate
  split
  · exact .of_none rfl
  · split
    · exact .of_none rfl
    · exact terminating_returns rfl

theorem flushing_returns {shutdown : Except Lsp.Error Unit}
    (hStop : s.stop = some (.closing k (.flushing shutdown) last)) : Returns p s := by
  cases hClient : s.client? k with
  | none =>
    have hStep : s.next? p .stopStep = some (s.terminate k last) := by
      simp [next?, stopStep?, hStop, hClient]
    exact .of_step (terminate_returns s k last) (by simp [hStop]) hStep
  | some c =>
    have hTimer : .flush k ∈ s.timers := mem_timers.mpr (.inr ⟨_, hStop, rfl⟩)
    refine .of_step ?_ (by simp [hStop]) (fire_next? hTimer)
    have hFlush : s.fire (.flush k) = (s.withClient k c.abort).terminate k last := by
      simp [fire, hStop, hClient, Lsp.Client.flushOver, continueClosing]
    exact hFlush ▸ terminate_returns ..

theorem client?_withClient {c d : Lsp.Client} (hClient : s.client? k = some c) :
    (s.withClient k d).client? k = some d := by
  obtain ⟨phase, hFace⟩ := face?_of_client? hClient
  rw [client?_eq, face?_withClient, if_pos rfl, hFace]
  rfl

theorem client?_expireCall {c : Lsp.Client} (hClient : s.client? k = some c) :
    (s.expireCall k id).client? k = some (c.expire id) := by
  obtain ⟨phase, hFace⟩ := face?_of_client? hClient
  rw [client?_eq, face?_expireCall, if_pos rfl, hFace]
  rfl

/-- The shutdown request is answered, or it is given up when the time for it is over. -/
theorem awaiting_returns {c : Lsp.Client} (hStop : s.stop = some (.closing k (.awaiting id) last))
    (hClient : s.client? k = some c) (hHolds : c.Holds id) : Returns p s := by
  have hTaken {s : State} {c : Lsp.Client} (hStop : s.stop = some (.closing k (.awaiting id) last))
      (hClient : s.client? k = some c) (hEnd : (c.takeEnd? id).isSome = true) : Returns p s := by
    obtain ⟨⟨d, outcome⟩, hEnd⟩ := Option.isSome_iff_exists.mp hEnd
    have hStep : s.next? p .stopStep = some (s.continueClosing k last
        (d.finishShutdown outcome).1.dropSender (.flushing (d.finishShutdown outcome).2)) := by
      simp [next?, stopStep?, hStop, hClient, Lsp.Client.closeStep?, hEnd]
    exact .of_step (flushing_returns rfl) (by simp [hStop]) hStep
  by_cases hOpen : id ∈ c.rpc.pending
  · have hTimer : .shutdown k id ∈ s.timers := mem_timers.mpr (.inr ⟨_, hStop, rfl⟩)
    have hExpired : Returns p (s.fire (.shutdown k id)) :=
      hTaken hStop (client?_expireCall hClient) (Lsp.Client.expire_takeEnd hOpen)
    exact hExpired.of_step (by simp [hStop]) (fire_next? hTimer)
  · exact hTaken hStop hClient (hHolds.takeEnd_isSome hOpen)

theorem releasing_returns (hStop : s.stop = some (.releasing k last)) : Returns p s := by
  cases hClient : s.client? k with
  | none =>
    have hStep : s.next? p .stopStep = some (s.terminate k last) := by
      simp [next?, stopStep?, hStop, hClient]
    exact .of_step (terminate_returns s k last) (by simp [hStop]) hStep
  | some c =>
    generalize hClose : c.beginClose = result
    obtain ⟨d, progress⟩ := result
    have hStep : s.next? p .stopStep = some (s.continueClosing k last d progress) := by
      simp [next?, stopStep?, hStop, hClient, hClose]
    refine .of_step ?_ (by simp [hStop]) hStep
    rcases Lsp.Client.beginClose_cases hClose with ⟨id, rfl, -, hHolds, -⟩ | ⟨⟨shutdown, rfl⟩, -⟩
    · exact awaiting_returns rfl (client?_withClient hClient) hHolds
    · exact flushing_returns rfl

theorem taking_returns (hStop : s.stop = some .taking) (hFree : s.slotFree = true) :
    Returns p s := by
  have hStep : s.next? p .stopStep = some s.takeSlot := by simp [next?, stopStep?, hStop, hFree]
  refine .of_step ?_ (by simp [hStop]) hStep
  rcases takeSlot_cases s with ⟨k, -, hReleasing, -⟩ | ⟨-, hNone, -⟩
  · exact releasing_returns hReleasing
  · exact .of_none hNone

theorem joined_returns (hStop : s.stop = some (.joining k)) (hPhase : s.phase? k = some .finished)
    (hFree : s.slotFree = true) : Returns p s := by
  have hStep : s.next? p .stopStep = some { s with stop := some .taking } := by
    simp [next?, stopStep?, hStop, hPhase]
  have hTaking : Returns p { s with stop := some .taking } := taking_returns rfl hFree
  exact hTaking.of_step (by simp [hStop]) hStep

theorem phase?_withClient (s : State) (k : Nat) (c : Lsp.Client) :
    (s.withClient k c).phase? k = s.phase? k := by
  rw [phase?_eq, face?_withClient, if_pos rfl, phase?_eq]
  cases s.face? k <;> rfl

theorem phase?_enter (phase' : Phase) (h : (s.phase? k).isSome = true) :
    (s.enter k phase').phase? k = some phase' := by
  obtain ⟨face, hFace⟩ := Option.isSome_iff_exists.mp (by simpa [phase?_eq] using h)
  rw [phase?_eq, face?_enter, if_pos rfl, hFace]
  rfl

theorem phase?_giveUp (h : (s.phase? k).isSome = true) :
    (s.onAttempt k (·.giveUp)).phase? k = some .finished := by
  obtain ⟨face, hFace⟩ := Option.isSome_iff_exists.mp (by simpa [phase?_eq] using h)
  rw [phase?_eq, face?_giveUp, if_pos rfl, hFace]
  rfl

theorem phase?_failStart (e : Error) (h : (s.phase? k).isSome = true) :
    (s.failStart k e).phase? k = some .finished := phase?_giveUp h

/-- A step of a start task leaves the stopping alone and brings the task nearer to its end. -/
theorem startStep_advances (h : s.startStep? p k = some t) :
    t.stop = s.stop ∧ ∃ phase phase', s.phase? k = some phase ∧ t.phase? k = some phase' ∧
      phase'.rank < phase.rank := by
  have hKnown {face : Phase × Option Lsp.Client} (hFace : s.face? k = some face) (c : Lsp.Client) :
      ((s.withClient k c).phase? k).isSome = true := by
    rw [phase?_withClient, phase?_of_face? hFace]
    rfl
  cases startStep_cases h with
  | failed e hFace hPhase =>
    have hBefore := phase?_of_face? hFace
    exact ⟨rfl, _, _, hBefore, phase?_failStart e (hBefore ▸ rfl), Phase.rank_pos hPhase⟩
  | refused e hFace hPhase =>
    exact ⟨rfl, _, _, phase?_of_face? hFace, phase?_failStart e (hKnown hFace _),
      Phase.rank_pos hPhase⟩
  | asked hFace | greeted hFace | configured hFace =>
    exact ⟨rfl, _, _, phase?_of_face? hFace, phase?_enter _ (hKnown hFace _), Nat.lt_succ_self _⟩
  | promoted hPhase =>
    have hFinished := phase?_promote (s := s) (j := k) (by rw [hPhase]; rfl)
    exact ⟨promote_stop s k, _, _, hPhase, hFinished, Nat.lt_succ_self 0⟩

/-- The task of a launched attempt can go on, unless the answer to its first call is awaited. -/
theorem startStep_isSome {heard : Rpc.Response → Prop} {said : List Rpc.Utterance} {phase : Phase}
    (hStage : Stage heard (s.face? k) said) (hPhase : s.phase? k = some phase)
    (hLaunched : phase ≠ .launching) (hUnfinished : phase ≠ .finished) (hFree : s.slotFree = true) :
    (s.startStep? p k).isSome = true ∨ phase = .handshaking 1 ∧
      ∃ c, s.client? k = some c ∧ 1 ∈ c.rpc.pending := by
  obtain ⟨⟨server, phase, client, process, errands⟩, hAttempt, rfl⟩ :=
    Option.map_eq_some_iff.mp hPhase
  have hFace : s.face? k = some (phase, client) := by simp [face?, hAttempt]
  dsimp only at hLaunched hUnfinished
  rw [hFace] at hStage
  cases hStage with
  | launching => exact absurd rfl hLaunched
  | connected | configuring => exact .inl (by simp [startStep?, hAttempt])
  | promoting => exact .inl (by simp [startStep?, hAttempt, hFree])
  | running | leaving | closed => exact absurd rfl hUnfinished
  | @handshaking c _ hHolds =>
    by_cases hOpen : 1 ∈ c.rpc.pending
    · exact .inr ⟨rfl, c, by simp [client?, hAttempt], hOpen⟩
    · exact .inl (by simp [startStep?, hAttempt, hHolds.takeEnd_isSome hOpen])

/-- When the time for the answer to the first call is over, the task can go on. -/
theorem startStep_of_expired {c : Lsp.Client} (hPhase : s.phase? k = some (.handshaking 1))
    (hClient : s.client? k = some c) (hOpen : 1 ∈ c.rpc.pending) :
    ((s.fire (.handshake k 1)).startStep? p k).isSome = true := by
  obtain ⟨a, hAttempt, hHandshaking⟩ := Option.map_eq_some_iff.mp hPhase
  have hHas : a.client = some c := by simpa [client?, hAttempt] using hClient
  simp [fire, expireCall, onAttempt, startStep?, hAttempt, hHandshaking, hHas,
    Lsp.Client.expire_takeEnd hOpen]

end State

/-- Joining the start task comes to its end: by induction on the phases that are still to come. -/
theorem joining_returns (hRun : Run p (.create p) trace s) (hStop : s.stop = some (.joining k)) :
    Returns p s := by
  obtain ⟨phase, hPhase⟩ := Option.isSome_iff_exists.mp (hRun.sound.known k (.inr hStop))
  induction hRank : phase.rank using Nat.strongRecOn generalizing s trace phase with
  | ind rank ih =>
    subst hRank
    have hSome : s.stop.isSome = true := by simp [hStop]
    have hFree := State.slotFree_of_allDone (hRun.sound.allDone hSome)
    have hStepped {u t : State} {trace : List Step} (hRun : Run p (.create p) trace u)
        (hStop : u.stop = some (.joining k)) (hPhase : u.phase? k = some phase)
        (hStep : u.startStep? p k = some t) : Returns p u := by
      obtain ⟨hSame, before, after, hBefore, hAfter, hLess⟩ := State.startStep_advances hStep
      obtain rfl := Option.some.inj (hBefore.symm.trans hPhase)
      have hNext : u.next? p (.task k) = some t := hStep
      exact (ih _ hLess (.step hRun hNext) (hSame.trans hStop) _ hAfter rfl).of_step
        (by simp [hStop]) hNext
    by_cases hFinished : phase = .finished
    · exact State.joined_returns hStop (hFinished ▸ hPhase) hFree
    by_cases hLaunching : phase = .launching
    · subst hLaunching
      -- The launcher may fail.
      have hStep (e : Error) : s.next? p (.launched k (.error e)) = some (s.failStart k e) := by
        simp [State.next?, State.launched, hPhase]
      have hJoined (e : Error) : Returns p (s.failStart k e) :=
        State.joined_returns hStop (State.phase?_failStart e (by simp [hPhase])) hFree
      exact (hJoined (.alreadyStarted .idle)).of_step hSome (hStep _)
    obtain ⟨said, hCourse⟩ := hRun.course k
    rcases State.startStep_isSome hCourse.stage hPhase hLaunching hFinished hFree with
      hStep | ⟨rfl, c, hClient, hOpen⟩
    · obtain ⟨t, hStep⟩ := Option.isSome_iff_exists.mp hStep
      exact hStepped hRun hStop hPhase hStep
    · have hTimer : .handshake k 1 ∈ s.timers := State.mem_timers.mpr (.inl ⟨k, 1, hPhase, rfl⟩)
      obtain ⟨t, hStep⟩ :=
        Option.isSome_iff_exists.mp (State.startStep_of_expired hPhase hClient hOpen)
      have hNext : s.next? p (.fire (.handshake k 1)) = some (s.fire (.handshake k 1)) :=
        State.fire_next? hTimer
      have hSame : (s.fire (.handshake k 1)).phase? k = some (.handshaking 1) := by
        rw [State.phase?_eq] at hPhase ⊢
        rw [State.fire, State.face?_expireCall, if_pos rfl, Option.map_map]
        exact hPhase
      exact (hStepped (.step hRun hNext) hStop hSame hStep).of_step hSome hNext

/-- From every moment of stopping, a run leads to its end. -/
theorem Run.returns (hRun : Run p (.create p) trace s) (hStop : s.stop.isSome = true) :
    Returns p s := by
  obtain ⟨stop, hStop'⟩ := Option.isSome_iff_exists.mp hStop
  have hSound := hRun.sound
  match stop, hStop' with
  | .joining k, hStop' => exact joining_returns hRun hStop'
  | .taking, hStop' =>
    exact State.taking_returns hStop' (State.slotFree_of_allDone (hSound.allDone hStop))
  | .releasing k last, hStop' => exact State.releasing_returns hStop'
  | .closing k (.awaiting id) last, hStop' =>
    obtain ⟨c, hClient, -, hHolds⟩ := hSound.awaiting k id last hStop'
    exact State.awaiting_returns hStop' hClient hHolds
  | .closing k (.flushing shutdown) last, hStop' => exact State.flushing_returns hStop'
  | .closing k (.closed shutdown) last, hStop' =>
    exact absurd hStop' (hSound.unclosed k shutdown last)
  | .terminating k last, hStop' => exact State.terminating_returns hStop'

end EditorBridge.Session
