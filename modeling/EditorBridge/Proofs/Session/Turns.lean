import EditorBridge.Proofs.Lsp.Client
import EditorBridge.Proofs.Session.StaleTasks
/-!
What a step of a run does to one attempt: to its phase, and to its client with the messages that
this one takes. Every step is one of the turns below for every attempt, so what holds of attempts in
all runs is proved turn by turn.
-/
namespace EditorBridge.Session

/-- The attempt whose session is being ended, and whether it was running. -/
def Stop.target? : Stop → Option (Nat × Bool)
  | .releasing k last | .closing k _ last | .terminating k last => some (k, last)
  | .joining _ | .taking => none

/-- The methods of the notifications that are forwarded. -/
def forwardedMethods : List String :=
  [Lsp.methods.configuration, Lsp.methods.watchedFiles, Lsp.methods.opened]

/-- Is an event a step of the loop of an attempt, or a change of its connection from outside? -/
def Event.touches (k : Nat) : Event → Prop
  | .loop j | .connection j _ => j = k
  | _ => False

namespace State

/-- How far an attempt has come, and its client. -/
def face? (s : State) (k : Nat) : Option (Phase × Option Lsp.Client) :=
  (s.attempts[k]?).map fun a => (a.phase, a.client)

/-- Is the session of an attempt being ended? -/
def Ends (s : State) (k : Nat) : Prop :=
  ∃ stop last, s.stop = some stop ∧ stop.target? = some (k, last)

/-- Does the session of an attempt stand in the slot, or is it being ended? -/
def Held (s : State) (k : Nat) : Prop := s.slot = some k ∨ s.Ends k

/-- Does a forwarding to the session of an attempt hold the lock of the slot? -/
def Locks (s : State) (k : Nat) : Prop := ∃ f ∈ s.forwards, f.delivery = .holding k

/-- The response to a call that the client of an attempt receives. -/
def response? (s : State) (event : Event) (k id : Nat) : Option Rpc.Response :=
  match event with
  | .loop j =>
    if j = k then (s.client? k).bind fun c => c.rpc.inbound?.bind (Rpc.answers id) else none
  | _ => none

end State

open Lsp.Client in
/-- What a step can do to an attempt, with the messages that its client takes. -/
inductive Turn (p : Profile) (s : State) (event : Event) (t : State) (k : Nat) :
    List Rpc.Utterance → Prop where
  | absent (hBefore : s.face? k = none) (hAfter : t.face? k = none) : Turn p s event t k []
  | begun (hRest : s.atRest = true) (hBefore : s.face? k = none)
      (hAfter : t.face? k = some (.launching, none)) : Turn p s event t k []
  | calm {phase : Phase} {client client' : Option Lsp.Client}
      (hBefore : s.face? k = some (phase, client)) (hAfter : t.face? k = some (phase, client'))
      (hCalm : client.Rel (Calm (s.response? event k)) client')
      (hOutbox : event.touches k ∨ client.Rel (fun c d => d.rpc.outbox = c.rpc.outbox) client') :
      Turn p s event t k []
  | connected {client : Option Lsp.Client} {transport : Stream.Transport}
      (hBefore : s.face? k = some (.launching, client))
      (hAfter : t.face? k = some (.connected, some (.create transport))) : Turn p s event t k []
  | asked {c d : Lsp.Client} {id : Nat} {params : Json}
      (hBefore : s.face? k = some (.connected, some c))
      (hAsk : c.askHandshake params = (d, .ok id))
      (hAfter : t.face? k = some (.handshaking id, some d)) :
      Turn p s event t k [.call id Lsp.methods.handshake (some params)]
  | greeted {c d e : Lsp.Client} {id : Nat} {outcome : Rpc.Outcome} {handshake : Lsp.Handshake}
      (hBefore : s.face? k = some (.handshaking id, some c))
      (hTake : c.takeEnd? id = some (d, outcome))
      (hFinish : d.finishHandshake outcome = (e, .ok handshake))
      (hAfter : t.face? k = some (.configuring, some e)) :
      Turn p s event t k [.notice Lsp.methods.handshakeDone (some (.object []))]
  | configured {c d : Lsp.Client} {settings : Json}
      (hBefore : s.face? k = some (.configuring, some c))
      (hTell : c.tellConfiguration settings = (d, .ok ()))
      (hAfter : t.face? k = some (.promoting, some d)) :
      Turn p s event t k
        [.notice Lsp.methods.configuration (some (Lsp.configurationParams settings))]
  | placed {client : Option Lsp.Client} (hRunning : t.status = .running) (hSlot : t.slot = some k)
      (hBefore : s.face? k = some (.promoting, client))
      (hAfter : t.face? k = some (.finished, client)) : Turn p s event t k []
  | gaveUp {phase : Phase} {client client' : Option Lsp.Client} (hStatus : t.status ≠ .starting)
      (hRunning : t.status = .running → s.status = .running ∨ s.slot = some k)
      (hPhase : phase ≠ .finished) (hBefore : s.face? k = some (phase, client))
      (hAfter : t.face? k = some (.finished, client'))
      (hClosed : client.Rel Closed client') : Turn p s event t k []
  | closed {phase : Phase} {client client' : Option Lsp.Client}
      (hHeld : s.slot = some k ∧ s.status = .starting ∨ s.Ends k)
      (hBefore : s.face? k = some (phase, client)) (hAfter : t.face? k = some (phase, client'))
      (hClosed : client.Rel Closed client')
      (hAwaiting : t.status = .running ∨
        ∀ id last, t.stop ≠ some (.closing k (.awaiting id) last)) :
      Turn p s event t k []
  | told {phase : Phase} {c d : Lsp.Client} {id : Nat} {method : String} {params : Json}
      (hEvent : event = .deliver id) (hLocks : s.Locks k)
      (hBefore : s.face? k = some (phase, some c)) (hInitialized : c.initialized = true)
      (hMethod : method ∈ forwardedMethods) (hSends : Sends c d (.notice method (some params)))
      (hAfter : t.face? k = some (phase, some d)) :
      Turn p s event t k [.notice method (some params)]
  | shutDown {phase : Phase} {c d : Lsp.Client} {id : Nat} {last : Bool}
      (hStop : s.stop = some (.releasing k last))
      (hBefore : s.face? k = some (phase, some c)) (hClose : c.beginClose = (d, .awaiting id))
      (hAfter : t.face? k = some (phase, some d))
      (hStop' : t.stop = some (.closing k (.awaiting id) last)) :
      Turn p s event t k [.call id Lsp.methods.shutdown none]
  | left {phase : Phase} {c d : Lsp.Client} {id : Nat} {last : Bool}
      (hStop : s.stop = some (.closing k (.awaiting id) last))
      (hBefore : s.face? k = some (phase, some c)) (hLeaves : c.Leaves d)
      (hAfter : t.face? k = some (phase, some d))
      (hStop' : t.stop = some (.closing k (.flushing (.ok ())) last)) :
      Turn p s event t k [.notice Lsp.methods.exit none]

/-- What a step of a start task does. -/
inductive TaskStep (p : Profile) (s : State) (k : Nat) : State → Prop where
  | failed {phase : Phase} {client : Option Lsp.Client} (e : Error)
      (hFace : s.face? k = some (phase, client)) (hPhase : phase ≠ .finished) :
      TaskStep p s k (s.failStart k e)
  | refused {phase : Phase} {c d : Lsp.Client} (e : Error)
      (hFace : s.face? k = some (phase, some c)) (hPhase : phase ≠ .finished)
      (hUnsaid : Lsp.Client.Unsaid c d) : TaskStep p s k ((s.withClient k d).failStart k e)
  | asked {c d : Lsp.Client} {id : Nat} {params : Json}
      (hFace : s.face? k = some (.connected, some c))
      (hAsk : c.askHandshake params = (d, .ok id)) :
      TaskStep p s k ((s.withClient k d).enter k (.handshaking id))
  | greeted {c d e : Lsp.Client} {id : Nat} {outcome : Rpc.Outcome} {handshake : Lsp.Handshake}
      (hFace : s.face? k = some (.handshaking id, some c))
      (hTake : c.takeEnd? id = some (d, outcome))
      (hFinish : d.finishHandshake outcome = (e, .ok handshake)) :
      TaskStep p s k ((s.withClient k e).enter k .configuring)
  | configured {c d : Lsp.Client} {settings : Json}
      (hFace : s.face? k = some (.configuring, some c))
      (hTell : c.tellConfiguration settings = (d, .ok ())) :
      TaskStep p s k ((s.withClient k d).enter k .promoting)
  | promoted (hPhase : s.phase? k = some .promoting) : TaskStep p s k (s.promote k)

/-- What a step of stopping does. -/
inductive StopStep (s : State) : State → Prop where
  | joined {k : Nat} (hStop : s.stop = some (.joining k)) (hPhase : s.phase? k = some .finished) :
      StopStep s { s with stop := some .taking }
  | took (hStop : s.stop = some .taking) : StopStep s s.takeSlot
  | absent {stop : Stop} {k : Nat} {last : Bool} (hStop : s.stop = some stop)
      (hTarget : stop.target? = some (k, last)) : StopStep s (s.terminate k last)
  | released {k : Nat} {last : Bool} {c d : Lsp.Client} {progress : Lsp.Client.Closing}
      (hStop : s.stop = some (.releasing k last)) (hClient : s.client? k = some c)
      (hClose : c.beginClose = (d, progress)) : StopStep s (s.continueClosing k last d progress)
  | closed {k : Nat} {last : Bool} {c d : Lsp.Client} {progress progress' : Lsp.Client.Closing}
      (hStop : s.stop = some (.closing k progress last)) (hClient : s.client? k = some c)
      (hStep : c.closeStep? progress = some (d, progress')) :
      StopStep s (s.continueClosing k last d progress')
  | ended {k : Nat} {last : Bool} {f : Attempt → Attempt}
      (hStop : s.stop = some (.terminating k last))
      (hSame : ∀ a, (f a).phase = a.phase ∧ (f a).client = a.client) :
      StopStep s ((s.onAttempt k f).finishStop last)

namespace State

variable {p : Profile} {s t : State} {event : Event} {j k : Nat}

theorem phase?_eq (s : State) (k : Nat) : s.phase? k = (s.face? k).map Prod.fst := by
  cases h : s.attempts[k]? <;> simp [phase?, face?, h]

theorem client?_eq (s : State) (k : Nat) : s.client? k = (s.face? k).bind Prod.snd := by
  cases h : s.attempts[k]? <;> simp [client?, face?, h]

theorem face?_onAttempt (s : State) (j k : Nat) (f : Attempt → Attempt) :
    (s.onAttempt j f).face? k =
      if j = k then (s.attempts[k]?).map fun a => ((f a).phase, (f a).client) else s.face? k := by
  unfold face? onAttempt
  rw [List.getElem?_modify]
  split <;> cases s.attempts[k]? <;> rfl

/-- Changes of anything else in an attempt keep all faces. -/
theorem face?_onAttempt_of_same (s : State) (j : Nat) {f : Attempt → Attempt}
    (h : ∀ a, (f a).phase = a.phase ∧ (f a).client = a.client) (k : Nat) :
    (s.onAttempt j f).face? k = s.face? k := by
  rw [face?_onAttempt]
  split
  · cases hAttempt : s.attempts[k]? with
    | none => simp [face?, hAttempt]
    | some a => simp [face?, hAttempt, h a]
  · rfl

theorem face?_withClient (s : State) (j k : Nat) (c : Lsp.Client) :
    (s.withClient j c).face? k =
      if j = k then (s.face? k).map fun face => (face.1, some c) else s.face? k := by
  rw [withClient, face?_onAttempt]
  split <;> cases h : s.attempts[k]? <;> simp [face?, h]

theorem face?_enter (s : State) (j k : Nat) (phase : Phase) :
    (s.enter j phase).face? k =
      if j = k then (s.face? k).map fun face => (phase, face.2) else s.face? k := by
  rw [enter, face?_onAttempt]
  split <;> cases h : s.attempts[k]? <;> simp [face?, h]

theorem face?_release (s : State) (j k : Nat) :
    (s.onAttempt j (·.release)).face? k =
      if j = k then (s.face? k).map fun face => (face.1, face.2.map Lsp.Client.abort)
      else s.face? k := by
  have hRelease (a : Attempt) :
      a.release.phase = a.phase ∧ a.release.client = a.client.map Lsp.Client.abort := by
    unfold Attempt.release Attempt.killProcess
    split <;> exact ⟨rfl, rfl⟩
  rw [face?_onAttempt]
  split <;> cases h : s.attempts[k]? <;> simp [face?, h, hRelease]

theorem face?_giveUp (s : State) (j k : Nat) :
    (s.onAttempt j (·.giveUp)).face? k =
      if j = k then (s.face? k).map fun face => (.finished, face.2.map Lsp.Client.abort)
      else s.face? k := by
  have hGiveUp : (s.onAttempt j (·.giveUp)) = (s.onAttempt j (·.release)).enter j .finished := by
    simp [onAttempt, enter, List.modify_modify_eq, Function.comp_def, Attempt.giveUp]
  rw [hGiveUp, face?_enter, face?_release]
  split <;> cases s.face? k <;> rfl

theorem face?_failStart (s : State) (j k : Nat) (e : Error) :
    (s.failStart j e).face? k =
      if j = k then (s.face? k).map fun face => (.finished, face.2.map Lsp.Client.abort)
      else s.face? k :=
  face?_giveUp s j k

theorem face?_expireCall (s : State) (j id k : Nat) :
    (s.expireCall j id).face? k =
      if j = k then (s.face? k).map fun face => (face.1, face.2.map (·.expire id))
      else s.face? k := by
  rw [expireCall, face?_onAttempt]
  split <;> cases hAttempt : s.attempts[k]? <;> simp [face?, hAttempt]

theorem face?_onConnection (s : State) (j : Nat) (change : Stream.Transport → Stream.Transport)
    (k : Nat) :
    (s.onConnection j (·.onto change)).face? k =
      if j = k then
        (s.face? k).map fun face => (face.1, face.2.map (·.onConnection (·.onto change)))
      else s.face? k := by
  rw [onConnection, face?_onAttempt]
  split <;> cases hAttempt : s.attempts[k]? <;> simp [face?, hAttempt]

theorem face?_exited (s : State) (code : Option Int) (k : Nat) :
    (s.exited code).face? k = s.face? k := by
  unfold exited
  split <;> rfl

theorem face?_onProcess (s : State) (j k : Nat)
    (f : Process.Manager → Process.Manager × List Process.Effect) :
    (s.onProcess j f).face? k = s.face? k := by
  have hEffect (s : State) (effect : Process.Effect) :
      (s.takeEffect j effect).face? k = s.face? k := by
    cases effect with
    | line text => rfl
    | exited exit => exact face?_exited s exit.code k
    | _ => exact face?_onAttempt_of_same _ _ (by simp) _
  have hAll (effects : List Process.Effect) (s : State) :
      (effects.foldl (fun s e => s.takeEffect j e) s).face? k = s.face? k := by
    induction effects generalizing s with
    | nil => rfl
    | cons effect effects ih => exact (ih _).trans (hEffect s effect)
  unfold onProcess
  split
  · rfl
  · exact (hAll _ _).trans (face?_onAttempt_of_same _ _ (by simp) _)

theorem face?_takeSlot (s : State) (k : Nat) : s.takeSlot.face? k = s.face? k := by
  unfold takeSlot
  split <;> rfl

theorem face?_terminate (s : State) (j : Nat) (last : Bool) (k : Nat) :
    (s.terminate j last).face? k = s.face? k := by
  unfold terminate
  split
  · rfl
  · split
    · rfl
    · exact face?_onAttempt_of_same _ _ (by simp) _

theorem face?_continueClosing (s : State) (j : Nat) (last : Bool) (c : Lsp.Client)
    (progress : Lsp.Client.Closing) (k : Nat) :
    (s.continueClosing j last c progress).face? k = (s.withClient j c).face? k := by
  unfold continueClosing
  split
  · exact face?_terminate ..
  · rfl

/-- Closing the session of one attempt leaves the others alone. -/
theorem face?_continueClosing_of_ne (h : j ≠ k) (last : Bool) (c : Lsp.Client)
    (progress : Lsp.Client.Closing) :
    (s.continueClosing j last c progress).face? k = s.face? k := by
  rw [face?_continueClosing, face?_withClient, if_neg h]

theorem face?_continueClosing_self {phase : Phase} {client : Option Lsp.Client}
    (h : s.face? j = some (phase, client)) (last : Bool) (c : Lsp.Client)
    (progress : Lsp.Client.Closing) :
    (s.continueClosing j last c progress).face? j = some (phase, some c) := by
  rw [face?_continueClosing, face?_withClient, if_pos rfl, h]
  rfl

theorem face?_releaseSlot (s : State) (k : Nat) :
    s.releaseSlot.face? k =
      if s.slot = some k then (s.face? k).map fun face => (face.1, face.2.map Lsp.Client.abort)
      else s.face? k := by
  unfold releaseSlot
  split
  · rename_i j hSlot
    have hRelease := face?_release s j k
    simp only [hSlot, Option.some.injEq]
    exact hRelease
  · rename_i hSlot
    simp [hSlot]

theorem turn_of_face?_eq (h : t.face? k = s.face? k) : Turn p s event t k [] := by
  match hBefore : s.face? k with
  | none => exact .absent hBefore (h.trans hBefore)
  | some (phase, none) => exact .calm hBefore (h.trans hBefore) .none (.inr .none)
  | some (phase, some c) =>
    exact .calm hBefore (h.trans hBefore) (.some (Lsp.Client.calm_refl c)) (.inr (.some rfl))

/-- A step that changes the client of one attempt, which is calm. -/
theorem turn_of_map {f : Lsp.Client → Lsp.Client}
    (hCalm : ∀ c, Lsp.Client.Calm (s.response? event k) c (f c))
    (hOutbox : event.touches j ∨ ∀ c, (f c).rpc.outbox = c.rpc.outbox)
    (hAfter : t.face? k = if j = k then (s.face? k).map fun face => (face.1, face.2.map f)
      else s.face? k) : Turn p s event t k [] := by
  by_cases hSame : j = k
  · rw [if_pos hSame] at hAfter
    match hBefore : s.face? k with
    | none => exact .absent hBefore (hAfter.trans (by rw [hBefore]; rfl))
    | some (phase, none) =>
      exact .calm hBefore (hAfter.trans (by rw [hBefore]; rfl)) .none (.inr .none)
    | some (phase, some c) =>
      exact .calm hBefore (hAfter.trans (by rw [hBefore]; rfl)) (.some (hCalm c))
        (hOutbox.imp (hSame ▸ ·) fun h => .some (h c))
  · exact turn_of_face?_eq (hAfter.trans (if_neg hSame))

theorem closed_abort (client : Option Lsp.Client) :
    client.Rel Lsp.Client.Closed (client.map Lsp.Client.abort) := by
  cases client with
  | none => exact .none
  | some c => exact .some (Lsp.Client.Unsaid.refl c).closed_abort

/-- An attempt that is given up after its client, if it has one, could not send. -/
theorem turn_of_giveUp {phase : Phase} {client : Option Lsp.Client} (hStatus : t.status ≠ .starting)
    (hRunning : t.status = .running → s.status = .running ∨ s.slot = some k)
    (hPhase : phase ≠ .finished) (hBefore : s.face? k = some (phase, client))
    (hAfter : t.face? k = some (.finished, client.map Lsp.Client.abort)) :
    Turn p s event t k [] :=
  .gaveUp hStatus hRunning hPhase hBefore hAfter (closed_abort client)

theorem launched_turn {result : Except Error (Stream.Transport × Option Process.Manager)}
    (h : s.launched j result = some t) : ∃ messages, Turn p s event t k messages := by
  unfold launched at h
  split at h
  · rename_i hPhase
    rw [phase?_eq] at hPhase
    obtain ⟨⟨phase, client⟩, hFace, rfl⟩ := Option.map_eq_some_iff.mp hPhase
    by_cases hSame : j = k
    · subst hSame
      split at h
      · rename_i transport process
        obtain rfl := Option.some.inj h
        have hAfter : (s.onAttempt j (·.connect transport process)).face? j =
            some (.connected, some (.create transport)) := by
          obtain ⟨a, hAttempt, -⟩ := Option.map_eq_some_iff.mp hFace
          simp [face?_onAttempt, hAttempt, Attempt.connect]
        exact ⟨[], .connected hFace hAfter⟩
      · obtain rfl := Option.some.inj h
        exact ⟨[], turn_of_giveUp nofun nofun (by simp) hFace (by simp [face?_failStart, hFace])⟩
    · refine ⟨[], turn_of_face?_eq ?_⟩
      split at h
      · obtain rfl := Option.some.inj h
        rw [face?_onAttempt, if_neg hSame]
      · obtain rfl := Option.some.inj h
        rw [face?_failStart, if_neg hSame]
  · cases h

/-- A failed start of an attempt whose client could not send. -/
theorem failStart_turn {phase : Phase} {c d : Lsp.Client} {e : Error} (hPhase : phase ≠ .finished)
    (hBefore : s.face? k = some (phase, some c)) (hUnsaid : Lsp.Client.Unsaid c d) :
    Turn p s event ((s.withClient k d).failStart k e) k [] :=
  .gaveUp nofun nofun hPhase hBefore (by simp [face?_failStart, face?_withClient, hBefore])
    (.some hUnsaid.closed_abort)

/-- A promotion while the session is starting ends the task and releases what stands in the slot. -/
theorem face?_promote (hStarting : s.status = .starting) (j k : Nat) :
    (s.promote j).face? k = (s.releaseSlot.enter j .finished).face? k := by
  rw [promote, if_pos hStarting]
  rfl

theorem phase?_promote (h : (s.phase? j).isSome = true) :
    (s.promote j).phase? j = some .finished := by
  obtain ⟨face, hFace⟩ := Option.isSome_iff_exists.mp (by simpa [phase?_eq] using h)
  rw [phase?_eq]
  by_cases hStarting : s.status = .starting
  · rw [face?_promote hStarting, face?_enter, if_pos rfl, face?_releaseSlot, hFace]
    split <;> rfl
  · rw [promote, if_neg hStarting, face?_giveUp, if_pos rfl, hFace]
    rfl

theorem promote_turn (hPhase : s.phase? j = some .promoting) :
    Turn p s event (s.promote j) k [] := by
  rw [phase?_eq] at hPhase
  obtain ⟨⟨phase, client⟩, hFace, rfl⟩ := Option.map_eq_some_iff.mp hPhase
  by_cases hStarting : s.status = .starting
  · have hUp : (s.promote j).status = .running ∧ (s.promote j).slot = some j := by
      simp [promote, hStarting]
    have hAfter := face?_promote hStarting j k
    rw [face?_enter, face?_releaseSlot] at hAfter
    by_cases hSame : j = k
    · subst hSame
      rw [if_pos rfl, hFace] at hAfter
      -- The slot can hold the session itself only in states that no run reaches.
      by_cases hSlot : s.slot = some j
      · rw [if_pos hSlot] at hAfter
        exact turn_of_giveUp (by simp [hUp.1]) (fun _ => .inr hSlot) (by simp) hFace hAfter
      · rw [if_neg hSlot] at hAfter
        exact .placed hUp.1 hUp.2 hFace hAfter
    · rw [if_neg hSame] at hAfter
      by_cases hSlot : s.slot = some k
      · rw [if_pos hSlot] at hAfter
        cases hBefore : s.face? k with
        | none => exact .absent hBefore (by simpa [hBefore] using hAfter)
        | some face =>
          obtain ⟨phase, client⟩ := face
          exact .closed (.inl ⟨hSlot, hStarting⟩) hBefore (by simpa [hBefore] using hAfter)
            (closed_abort client) (.inl hUp.1)
      · rw [if_neg hSlot] at hAfter
        exact turn_of_face?_eq hAfter
  · rw [promote, if_neg hStarting]
    by_cases hSame : j = k
    · subst hSame
      exact turn_of_giveUp hStarting .inl (by simp) hFace (by simp [face?_giveUp, hFace])
    · refine turn_of_face?_eq ?_
      rw [face?_giveUp, if_neg hSame]

theorem face?_of_aside (h : Aside j s t) (hOther : k ≠ j) : t.face? k = s.face? k := by
  rw [face?, face?, h.others k hOther]

/-- Every step of a start task is one of these. -/
theorem startStep_cases (h : s.startStep? p k = some t) : TaskStep p s k t := by
  unfold startStep? at h
  split at h
  · cases h
  · rename_i a hAttempt
    have hFace : s.face? k = some (a.phase, a.client) := by simp [face?, hAttempt]
    split at h
    · rename_i c hPhase hClient
      rw [hPhase, hClient] at hFace
      obtain rfl := Option.some.inj h
      unfold askHandshake
      split
      · exact .failed _ hFace nofun
      · split
        · rename_i hAsk
          exact .refused _ hFace nofun (Lsp.Client.unsaid_askHandshake hAsk)
        · rename_i hAsk
          exact .asked hFace hAsk
    · rename_i id c hPhase hClient
      rw [hPhase, hClient] at hFace
      obtain ⟨⟨d, outcome⟩, hTake, rfl⟩ := Option.map_eq_some_iff.mp h
      dsimp only
      unfold finishHandshake
      split
      · rename_i hFinish
        have hTaken := (Lsp.Client.takeEnd_unsaid hTake).1
        exact .refused _ hFace nofun (hTaken.trans (Lsp.Client.unsaid_finishHandshake hFinish))
      · rename_i hFinish
        exact .greeted hFace hTake hFinish
    · rename_i c hPhase hClient
      rw [hPhase, hClient] at hFace
      obtain rfl := Option.some.inj h
      unfold configure
      split
      · rename_i hTell
        obtain rfl := Lsp.Client.tellInitialized_error hTell
        exact .refused _ hFace nofun (.refl _)
      · rename_i hTell
        exact .configured hFace hTell
    · rename_i hPhase
      split at h
      · obtain rfl := Option.some.inj h
        exact .promoted (by simp [phase?, hAttempt, hPhase])
      · cases h
    · cases h

theorem startStep_turn (h : s.startStep? p k = some t) :
    ∃ messages, Turn p s event t k messages := by
  cases startStep_cases h with
  | failed e hFace hPhase =>
    exact ⟨[], turn_of_giveUp nofun nofun hPhase hFace (by simp [face?_failStart, hFace])⟩
  | refused e hFace hPhase hUnsaid => exact ⟨[], failStart_turn hPhase hFace hUnsaid⟩
  | asked hFace hAsk =>
    exact ⟨_, .asked hFace hAsk (by simp [face?_enter, face?_withClient, hFace])⟩
  | greeted hFace hTake hFinish =>
    exact ⟨_, .greeted hFace hTake hFinish (by simp [face?_enter, face?_withClient, hFace])⟩
  | configured hFace hTell =>
    exact ⟨_, .configured hFace hTell (by simp [face?_enter, face?_withClient, hFace])⟩
  | promoted hPhase => exact ⟨[], promote_turn hPhase⟩

/-- The task of one attempt touches no other, unless its promotion releases that one. -/
theorem task_turn (hStep : s.next? p event = some t) (hTask : event = .task j) :
    ∃ messages, Turn p s event t k messages := by
  subst hTask
  by_cases hSame : j = k
  · subst hSame
    exact startStep_turn hStep
  · by_cases hPhase : s.phase? j = some .promoting
    · obtain ⟨-, rfl⟩ := promote_eq hStep hPhase
      exact ⟨[], promote_turn hPhase⟩
    · generalize hError : s.taskError? p (.task j) = error
      cases hError ▸ task_move hStep rfl with
      | onward hAside => exact ⟨[], turn_of_face?_eq (face?_of_aside hAside (Ne.symm hSame))⟩
      | failed e hAside => exact ⟨[], turn_of_face?_eq (face?_of_aside hAside (Ne.symm hSame))⟩
      | promoted hPromoting => exact absurd hPromoting hPhase

theorem face?_of_client? {c : Lsp.Client} (h : s.client? k = some c) :
    ∃ phase, s.face? k = some (phase, some c) := by
  rw [client?_eq] at h
  obtain ⟨⟨phase, client⟩, hFace, rfl⟩ := Option.bind_eq_some_iff.mp h
  exact ⟨phase, hFace⟩

theorem terminate_stop {id : Nat} {last last' : Bool}
    (h : (s.terminate j last).stop = some (.closing k (.awaiting id) last')) : False := by
  unfold terminate at h
  split at h
  · cases h
  · split at h <;> cases h

/-- A client that goes on being closed, or stays as it is, while its session is being ended. -/
theorem continueClosing_turn {phase : Phase} {c d : Lsp.Client} {last : Bool}
    {progress : Lsp.Client.Closing} (hEnds : s.Ends j) (hBefore : s.face? j = some (phase, some c))
    (hProgress : ∀ id, progress ≠ .awaiting id) (hClient : Lsp.Client.Closed c d ∨ d = c) :
    Turn p s event (s.continueClosing j last d progress) k [] := by
  by_cases hSame : j = k
  · subst hSame
    have hAfter := face?_continueClosing_self hBefore last d progress
    rcases hClient with hClosed | rfl
    · refine .closed (.inr hEnds) hBefore hAfter (.some hClosed) (.inr fun id last' hAwaiting => ?_)
      cases progress with
      | awaiting id => exact hProgress id rfl
      | flushing shutdown => cases hAwaiting
      | closed shutdown => exact terminate_stop hAwaiting
    · exact turn_of_face?_eq (hAfter.trans hBefore.symm)
  · exact turn_of_face?_eq (face?_continueClosing_of_ne hSame ..)

/-- Every step of stopping is one of these. -/
theorem stopStep_cases (h : s.stopStep? = some t) : StopStep s t := by
  unfold stopStep? at h
  split at h
  · cases h
  · rename_i hStop
    split at h
    · exact Option.some.inj h ▸ .joined hStop ‹_›
    · cases h
  · rename_i hStop
    split at h
    · exact Option.some.inj h ▸ .took hStop
    · cases h
  · rename_i j last hStop
    split at h
    · exact Option.some.inj h ▸ .absent hStop rfl
    · rename_i c hClient
      generalize hClose : c.beginClose = result at h
      obtain ⟨d, progress⟩ := result
      exact Option.some.inj h ▸ .released hStop hClient hClose
  · rename_i j progress last hStop
    split at h
    · exact Option.some.inj h ▸ .absent hStop rfl
    · rename_i c hClient
      obtain ⟨⟨d, progress'⟩, hStep, rfl⟩ := Option.map_eq_some_iff.mp h
      exact .closed hStop hClient hStep
  · rename_i j last hStop
    split at h
    · obtain rfl := Option.some.inj h
      have hNothing : (s.onAttempt j id).finishStop last = s.finishStop last := by
        rw [onAttempt, List.modify_id]
      exact hNothing ▸ .ended hStop fun a => ⟨rfl, rfl⟩
    · obtain ⟨⟨m, effects⟩, -, rfl⟩ := Option.map_eq_some_iff.mp h
      exact .ended hStop fun a => ⟨rfl, rfl⟩

theorem stopStep_turn (h : s.stopStep? = some t) : ∃ messages, Turn p s event t k messages := by
  cases stopStep_cases h with
  | joined => exact ⟨[], turn_of_face?_eq rfl⟩
  | took => exact ⟨[], turn_of_face?_eq (face?_takeSlot s k)⟩
  | absent => exact ⟨[], turn_of_face?_eq (face?_terminate ..)⟩
  | @released j last c d progress hStop hClient hClose =>
    obtain ⟨phase, hFace⟩ := face?_of_client? hClient
    rcases Lsp.Client.beginClose_cases hClose with ⟨id, rfl, -⟩ | ⟨⟨shutdown, rfl⟩, hClosed⟩
    · by_cases hSame : j = k
      · subst hSame
        exact ⟨_, .shutDown hStop hFace hClose (face?_continueClosing_self hFace ..) rfl⟩
      · exact ⟨[], turn_of_face?_eq (face?_continueClosing_of_ne hSame ..)⟩
    · exact ⟨[], continueClosing_turn ⟨_, last, hStop, rfl⟩ hFace nofun (.inl hClosed)⟩
  | @closed j last c d progress progress' hStop hClient hStep =>
    have hEnds : s.Ends j := ⟨_, last, hStop, rfl⟩
    obtain ⟨phase, hFace⟩ := face?_of_client? hClient
    rcases Lsp.Client.closeStep_cases hStep with
      ⟨id, rfl, rfl, hLeaves⟩ | ⟨⟨shutdown, rfl⟩, hClosed⟩ | ⟨⟨shutdown, rfl⟩, hUnchanged⟩
    · by_cases hSame : j = k
      · subst hSame
        exact ⟨_, .left hStop hFace hLeaves (face?_continueClosing_self hFace ..) rfl⟩
      · exact ⟨[], turn_of_face?_eq (face?_continueClosing_of_ne hSame ..)⟩
    · exact ⟨[], continueClosing_turn hEnds hFace nofun (.inl hClosed)⟩
    · exact ⟨[], continueClosing_turn hEnds hFace nofun (.inr hUnchanged)⟩
  | ended hStop hSame => exact ⟨[], turn_of_face?_eq (face?_onAttempt_of_same _ _ hSame _)⟩

/-- What the forwarding of a notification sends. -/
theorem tell_cases {c d : Lsp.Client} {message : Message} {result : Except Lsp.Error Unit}
    (h : s.tell p c message = (d, result)) :
    (∃ method params, method ∈ forwardedMethods ∧ c.initialized = true ∧
      Lsp.Client.Sends c d (.notice method (some params))) ∨ d = c := by
  have hTold {method : String} {params : Json} (hMethod : method ∈ forwardedMethods)
      (hTell : c.tellInitialized method params = (d, result)) :
      (∃ method params, method ∈ forwardedMethods ∧ c.initialized = true ∧
        Lsp.Client.Sends c d (.notice method (some params))) ∨ d = c := by
    match result, hTell with
    | .ok (), hTell =>
      obtain ⟨hInitialized, hSends⟩ := Lsp.Client.tellInitialized_sends hTell
      exact .inl ⟨method, params, hMethod, hInitialized, hSends⟩
    | .error e, hTell => exact .inr (Lsp.Client.tellInitialized_error hTell)
  unfold tell at h
  split at h
  · exact hTold (by simp [forwardedMethods]) h
  · exact hTold (by simp [forwardedMethods]) h
  · split at h
    · exact .inr (Prod.mk.inj h).1.symm
    · exact hTold (by simp [forwardedMethods]) h

/-- A forwarding that sends tells something to the client of the session for which it holds the
lock. -/
theorem deliver_eq {id : Nat} (h : s.deliver? p id = some t) :
    ∃ j message c d result, s.Locks j ∧ s.client? j = some c ∧ s.tell p c message = (d, result) ∧
      ∀ k, t.face? k = (s.withClient j d).face? k := by
  unfold deliver? at h
  split at h
  · rename_i message j hFind
    have hHolds := List.mem_of_find?_eq_some hFind
    obtain ⟨c, hClient, hTold⟩ := Option.map_eq_some_iff.mp h
    generalize hTell : s.tell p c message = told at hTold
    obtain ⟨d, result⟩ := told
    refine ⟨j, message, c, d, result, ⟨_, hHolds, rfl⟩, hClient, hTell, fun k => ?_⟩
    match result, hTold with
    | .ok (), hTold => exact hTold ▸ rfl
    | .error e, hTold => exact hTold ▸ rfl
  · cases h

theorem deliver_turn {id : Nat} (hStep : s.next? p event = some t)
    (hDeliver : event = .deliver id) :
    ∃ messages, Turn p s event t k messages := by
  subst hDeliver
  obtain ⟨j, message, c, d, result, hLocks, hClient, hTell, hFaces⟩ := deliver_eq hStep
  obtain ⟨phase, hFace⟩ := face?_of_client? hClient
  have hAfter := hFaces k
  rw [face?_withClient] at hAfter
  by_cases hSame : j = k
  · subst hSame
    rw [if_pos rfl, hFace] at hAfter
    rcases tell_cases hTell with ⟨method, params, hMethod, hInitialized, hSends⟩ | rfl
    · exact ⟨_, .told rfl hLocks hFace hInitialized hMethod hSends hAfter⟩
    · exact ⟨[], turn_of_face?_eq (hAfter.trans hFace.symm)⟩
  · rw [if_neg hSame] at hAfter
    exact ⟨[], turn_of_face?_eq hAfter⟩

/-- The spans of time that run: one for each handshake that is awaited, and one for the stopping. -/
theorem mem_timers {timer : Timer} : timer ∈ s.timers ↔
    (∃ k id, s.phase? k = some (.handshaking id) ∧ timer = .handshake k id) ∨
      ∃ stop, s.stop = some stop ∧ Timer.ofStop? stop = some timer := by
  rw [timers, List.mem_append, List.mem_filterMap, Option.mem_toList,
    Option.bind_eq_some_iff]
  refine or_congr_left ⟨?_, ?_⟩
  · rintro ⟨⟨a, k⟩, hMem, hTimer⟩
    have hAttempt := List.mem_zipIdx_iff_getElem?.mp hMem
    simp only [Timer.ofPhase?] at hTimer
    split at hTimer
    · rename_i id hPhase
      cases hTimer
      exact ⟨k, id, by simp_all [phase?], rfl⟩
    · cases hTimer
  · rintro ⟨k, id, hPhase, rfl⟩
    obtain ⟨a, hAttempt, hPhase⟩ := Option.map_eq_some_iff.mp hPhase
    exact ⟨(a, k), List.mem_zipIdx_iff_getElem?.mpr hAttempt, by simp [hPhase, Timer.ofPhase?]⟩

/-- What is told of the end of flushing comes from a session that is being ended. -/
theorem stop_of_flush_mem (h : .flush j ∈ s.timers) :
    ∃ shutdown last, s.stop = some (.closing j (.flushing shutdown) last) := by
  rcases mem_timers.mp h with ⟨k, id, -, hTimer⟩ | ⟨stop, hStop, hTimer⟩
  · cases hTimer
  · unfold Timer.ofStop? at hTimer
    split at hTimer <;> cases hTimer
    exact ⟨_, _, hStop⟩

/-- When the time for flushing is over, the client of the session that is being ended is cut off. -/
theorem fire_flush (h : .flush j ∈ s.timers) :
    s.fire (.flush j) = s ∨ ∃ stop last c shutdown, s.stop = some stop ∧
      stop.target? = some (j, last) ∧ s.client? j = some c ∧
      s.fire (.flush j) = s.continueClosing j last c.abort (.closed shutdown) := by
  obtain ⟨shutdown, last, hStop⟩ := stop_of_flush_mem h
  match hClient : s.client? j with
  | none => exact .inl (by simp [fire, hStop, hClient])
  | some c =>
    exact .inr ⟨_, last, c, shutdown, hStop, rfl, rfl,
      by simp [fire, hStop, hClient, Lsp.Client.flushOver]⟩

theorem fire_turn {timer : Timer} (hTimer : timer ∈ s.timers) :
    Turn p s event (s.fire timer) k [] := by
  have hExpire (j id : Nat) : Turn p s event (s.expireCall j id) k [] :=
    turn_of_map (fun c => Lsp.Client.calm_expire c id)
      (.inr fun c => Lsp.Client.expire_outbox c id) (face?_expireCall s j id k)
  cases timer with
  | handshake j id => exact hExpire j id
  | shutdown j id => exact hExpire j id
  | flush j =>
    rcases fire_flush hTimer with hSame | ⟨stop, last, c, shutdown, hStop, hTarget, hClient, hFlush⟩
    · exact turn_of_face?_eq (by rw [hSame])
    · obtain ⟨phase, hFace⟩ := face?_of_client? hClient
      rw [hFlush]
      exact continueClosing_turn ⟨stop, last, hStop, hTarget⟩ hFace nofun
        (.inl (Lsp.Client.Unsaid.refl c).closed_abort)
  | grace j =>
    simp only [fire]
    split
    · exact turn_of_face?_eq (face?_onProcess ..)
    · exact turn_of_face?_eq rfl

theorem start_turn {path : Path} {root : Option Path} (hRest : s.atRest = true)
    (h : s.start path root = .ok t) :
    Turn p s event t k [] := by
  obtain ⟨-, rfl⟩ := start_eq h
  rcases Nat.lt_trichotomy k s.attempts.length with hOld | rfl | hNew
  · exact turn_of_face?_eq (by simp [face?, List.getElem?_append_left hOld])
  · exact .begun hRest (by simp [face?]) (by simp [face?, Attempt.launch])
  · have hNone (attempts : List Attempt) (h : attempts.length ≤ k) :
        (attempts[k]?).map (fun a => (a.phase, a.client)) = none := by
      rw [List.getElem?_eq_none h]
      rfl
    exact .absent (hNone _ (by omega)) (hNone _ (by simp; omega))

theorem loop_turn (h : s.loopStep? j = some t) : Turn p s (.loop j) t k [] := by
  obtain ⟨c, hClient, hLoop⟩ := Option.bind_eq_some_iff.mp h
  obtain ⟨⟨d, notifications⟩, hStep, rfl⟩ := Option.map_eq_some_iff.mp hLoop
  obtain ⟨phase, hFace⟩ := face?_of_client? hClient
  have hAfter :
      ({ s.withClient j d with output := notifications.foldl route s.output } : State).face? k =
        (s.withClient j d).face? k := rfl
  rw [face?_withClient] at hAfter
  by_cases hSame : j = k
  · subst hSame
    rw [if_pos rfl, hFace] at hAfter
    refine .calm hFace hAfter (.some ?_) (.inl rfl)
    have hHeard : s.response? (.loop j) j = fun id => c.rpc.inbound?.bind (Rpc.answers id) := by
      funext id
      simp [response?, hClient]
    rw [hHeard]
    exact Lsp.Client.calm_loop hStep
  · rw [if_neg hSame] at hAfter
    exact turn_of_face?_eq hAfter

/-- Every step of a run is one of the turns, for each attempt. -/
theorem next?_turn (h : s.next? p event = some t) (k : Nat) :
    ∃ messages, Turn p s event t k messages := by
  cases event with
  | start path root =>
    simp only [next?] at h
    split at h
    · cases hStart : s.start path root with
      | ok t' =>
        rw [hStart] at h
        exact ⟨[], start_turn ‹_› (Option.some.inj h ▸ hStart)⟩
      | error e => rw [hStart] at h; cases h
    · cases h
  | launched j result => exact launched_turn h
  | task j => exact task_turn h rfl
  | stopStep => exact stopStep_turn h
  | deliver id => exact deliver_turn h rfl
  | loop j => exact ⟨[], loop_turn h⟩
  | stop | changeConfiguration | forward =>
    simp only [next?] at h
    split at h
    · exact ⟨[], turn_of_face?_eq (Option.some.inj h ▸ rfl)⟩
    · cases h
  | acquire id =>
    have hSame : t.attempts = s.attempts := by
      simp only [next?, acquire?] at h
      split at h
      · split at h
        · split at h
          · split at h <;> exact Option.some.inj h ▸ rfl
          · exact Option.some.inj h ▸ rfl
        · cases h
      · cases h
    exact ⟨[], turn_of_face?_eq (by rw [face?, hSame, face?])⟩
  | takeResult id =>
    obtain ⟨⟨u, result⟩, hTaken, rfl⟩ := Option.map_eq_some_iff.mp h
    unfold takeResult? at hTaken
    split at hTaken <;> cases hTaken
    exact ⟨[], turn_of_face?_eq rfl⟩
  | connection j change =>
    obtain rfl := Option.some.inj h
    exact ⟨[], turn_of_map (fun c => Lsp.Client.calm_onConnection c change) (.inl rfl)
      (face?_onConnection s j change k)⟩
  | sawExit | errors | errorsEnd =>
    exact ⟨[], turn_of_face?_eq (Option.some.inj h ▸ face?_onProcess ..)⟩
  | tellExit j =>
    obtain ⟨m, -, hTell⟩ := Option.bind_eq_some_iff.mp h
    obtain ⟨⟨m', exit⟩, -, rfl⟩ := Option.map_eq_some_iff.mp hTell
    refine ⟨[], turn_of_face?_eq ?_⟩
    exact (face?_exited ..).trans (face?_onAttempt_of_same _ _ (by simp) _)
  | exit j code =>
    simp only [next?] at h
    split at h
    · exact ⟨[], turn_of_face?_eq (Option.some.inj h ▸ face?_exited ..)⟩
    · cases h
  | line text => exact ⟨[], turn_of_face?_eq (Option.some.inj h ▸ rfl)⟩
  | obey j =>
    obtain rfl := Option.some.inj h
    exact ⟨[], turn_of_face?_eq (face?_onAttempt_of_same _ _ (by simp) _)⟩
  | fire timer =>
    simp only [next?] at h
    split at h
    · exact ⟨[], Option.some.inj h ▸ fire_turn ‹_›⟩
    · cases h

end State
end EditorBridge.Session
