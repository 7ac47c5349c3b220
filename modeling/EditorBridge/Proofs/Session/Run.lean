import EditorBridge.Session.Manager
/-!
Runs of a session manager. Its owner, the tasks of all attempts, their connections and processes,
and the clock act in any order. An owner who starts or stops has the manager for himself, so no
notification is then being forwarded. Only starting, the tasks, stopping, exits and the clock can
change the status or the slot.
-/
namespace EditorBridge.Session

/-- Is the session starting or running? -/
def Status.isUp : Status → Bool
  | .starting | .running => true
  | _ => false

/-- What can happen to a session manager and to what it has started. A start that is refused changes
nothing and is left out. -/
inductive Event where
  | start (path : Path) (root : Option Path)
  | stop
  | changeConfiguration (settings : Json)
  | forward (message : Message)
  | launched (attempt : Nat) (result : Except Error (Stream.Transport × Option Process.Manager))
  | task (attempt : Nat)
  | stopStep
  | acquire (id : Nat)
  | deliver (id : Nat)
  | takeResult (id : Nat)
  | loop (attempt : Nat)
  | connection (attempt : Nat) (change : Stream.Transport → Stream.Transport)
  | sawExit (attempt : Nat) (exit : Process.Exit)
  | tellExit (attempt : Nat)
  /-- A launcher without a process manager tells the exit of its server. -/
  | exit (attempt : Nat) (code : Option Int)
  | errors (attempt pid : Nat) (bytes : List UInt8)
  | errorsEnd (attempt pid : Nat)
  | line (text : String)
  /-- The system has done what was asked of it on behalf of a process. -/
  | obey (attempt : Nat)
  | fire (timer : State.Timer)

namespace State

/-- What becomes of a manager; none when the event cannot happen now. -/
def next? (p : Profile) (s : State) : Event → Option State
  | .start path root => if s.atRest then (s.start path root).toOption else none
  | .stop => if s.atRest then some s.requestStop else none
  | .changeConfiguration settings =>
    if s.stop.isNone then some (s.changeConfiguration settings).1 else none
  | .forward message => if s.stop.isNone then some (s.forward message).1 else none
  | .launched k result => s.launched k result
  | .task k => s.startStep? p k
  | .stopStep => s.stopStep?
  | .acquire id => s.acquire? id
  | .deliver id => s.deliver? p id
  | .takeResult id => (s.takeResult? id).map Prod.fst
  | .loop k => s.loopStep? k
  | .connection k change => some (s.onConnection k (·.onto change))
  | .sawExit k exit => some (s.onProcess k fun m => (m.observeExit exit, []))
  | .tellExit k => s.tellExit? k
  | .exit k code => if k < s.attempts.length then some (s.exited code) else none
  | .errors k pid bytes => some (s.onProcess k (·.errorOutput pid bytes))
  | .errorsEnd k pid => some (s.onProcess k (·.errorEnd pid))
  | .line text => some { s with output := s.output.append .info text }
  | .obey k => some (s.onAttempt k fun a => { a with errands := [] })
  | .fire timer => if timer ∈ s.timers then some (s.fire timer) else none

end State

/-- A profile for runs on fixed inputs. -/
def plainProfile : Profile where
  clientId := "java"
  clientName := "bridge"
  processId := .nat 1
  options := ⟨[], "java", ⟨[]⟩, "output", .never⟩
  handshakeLimit := .ofSecs 30
  requestLimit := .ofSecs 5

/-- A step of a run. -/
structure Step where
  before : State
  event : Event
  after : State

/-- The steps of a manager one after the other. -/
inductive Run (p : Profile) (s : State) : List Step → State → Prop where
  | start : Run p s [] s
  | step {trace : List Step} {t u : State} {event : Event} (prior : Run p s trace t)
      (last : t.next? p event = some u) : Run p s (trace ++ [⟨t, event, u⟩]) u

theorem Run.trans {p : Profile} {s t u : State} {first second : List Step}
    (hFirst : Run p s first t) (hSecond : Run p t second u) : Run p s (first ++ second) u := by
  induction hSecond with
  | start => simpa using hFirst
  | step prior last ih => rw [← List.append_assoc]; exact .step ih last

/-- Every step of a run is one that can happen. -/
theorem Run.next? {p : Profile} {s t : State} {trace : List Step} (hRun : Run p s trace t) :
    ∀ step ∈ trace, step.before.next? p step.event = some step.after := by
  induction hRun with
  | start => simp
  | step prior last ih =>
    intro step hStep
    rcases List.mem_append.mp hStep with h | h
    · exact ih step h
    · obtain rfl := List.mem_singleton.mp h
      exact last

namespace State

/-- What comes of given events one after the other, if each of them can happen. -/
def follow? (p : Profile) (s : State) : List Event → Option (List Step × State)
  | [] => some ([], s)
  | event :: rest =>
    match s.next? p event with
    | none => none
    | some t => (follow? p t rest).map fun (trace, u) => (⟨s, event, t⟩ :: trace, u)

theorem run_of_follow? {p : Profile} {s t : State} {events : List Event} {trace : List Step}
    (h : s.follow? p events = some (trace, t)) : Run p s trace t := by
  induction events generalizing s trace with
  | nil =>
    simp only [follow?, Option.some.injEq, Prod.mk.injEq] at h
    obtain ⟨rfl, rfl⟩ := h
    exact .start
  | cons event rest ih =>
    unfold follow? at h
    split at h
    · cases h
    · rename_i u hStep
      obtain ⟨⟨more, v⟩, hRest, hEnd⟩ := Option.map_eq_some_iff.mp h
      simp only [Prod.mk.injEq] at hEnd
      obtain ⟨rfl, rfl⟩ := hEnd
      exact Run.trans (.step .start hStep) (ih hRest)

/-- The number of attempts is kept, and so is the status unless the session is up no longer. -/
structure Ebbs (s t : State) : Prop where
  status : t.status = s.status ∨ t.status.isUp = false
  length : t.attempts.length = s.attempts.length

variable {p : Profile} {s t u : State}

namespace Ebbs

theorem refl (s : State) : Ebbs s s := ⟨.inl rfl, rfl⟩

theorem trans (hFirst : Ebbs s t) (hSecond : Ebbs t u) : Ebbs s u where
  status := by
    rcases hSecond.status with hSame | hDown
    · rw [hSame]
      exact hFirst.status
    · exact .inr hDown
  length := hSecond.length.trans hFirst.length

theorem isUp (h : Ebbs s t) (hUp : t.status.isUp = true) : t.status = s.status :=
  h.status.resolve_right (by simp [hUp])

end Ebbs

theorem onAttempt_length (s : State) (k : Nat) (f : Attempt → Attempt) :
    (s.onAttempt k f).attempts.length = s.attempts.length := by
  simp [onAttempt]

theorem onAttempt_ebbs (s : State) (k : Nat) (f : Attempt → Attempt) : Ebbs s (s.onAttempt k f) :=
  ⟨.inl rfl, onAttempt_length s k f⟩

theorem withClient_ebbs (s : State) (k : Nat) (c : Lsp.Client) : Ebbs s (s.withClient k c) :=
  onAttempt_ebbs ..

theorem exited_ebbs (s : State) (code : Option Int) : Ebbs s (s.exited code) := by
  unfold exited
  split
  · exact ⟨.inr rfl, rfl⟩
  · exact ⟨.inr rfl, rfl⟩
  · exact .refl s

theorem takeEffect_ebbs (s : State) (k : Nat) (effect : Process.Effect) :
    Ebbs s (s.takeEffect k effect) := by
  cases effect with
  | line text => exact ⟨.inl rfl, rfl⟩
  | exited exit => exact exited_ebbs s exit.code
  | _ => exact onAttempt_ebbs ..

theorem onProcess_ebbs (s : State) (k : Nat)
    (f : Process.Manager → Process.Manager × List Process.Effect) : Ebbs s (s.onProcess k f) := by
  have hAll (effects : List Process.Effect) (s : State) :
      Ebbs s (effects.foldl (fun s e => s.takeEffect k e) s) := by
    induction effects generalizing s with
    | nil => exact .refl s
    | cons effect effects ih => exact (takeEffect_ebbs s k effect).trans (ih _)
  unfold onProcess
  split
  · exact .refl s
  · exact (onAttempt_ebbs ..).trans (hAll ..)

theorem failStart_ebbs (s : State) (k : Nat) (e : Error) : Ebbs s (s.failStart k e) :=
  ⟨.inr rfl, onAttempt_length ..⟩

theorem finishStop_ebbs (s : State) (last : Bool) : Ebbs s (s.finishStop last) := by
  cases last with
  | true => exact ⟨.inr rfl, rfl⟩
  | false => exact ⟨.inl rfl, rfl⟩

theorem takeSlot_ebbs (s : State) : Ebbs s s.takeSlot := by
  have hTaken : Ebbs s { s with
      slot := none, status := if s.status = .running then .stopping else s.status } := by
    refine ⟨?_, rfl⟩
    by_cases h : s.status = .running
    · exact .inr (by simp [h, Status.isUp])
    · exact .inl (by simp [h])
  unfold takeSlot
  split
  · exact ⟨by simpa using hTaken.status, rfl⟩
  · exact .trans (by simpa using hTaken) (finishStop_ebbs ..)

theorem terminate_ebbs (s : State) (k : Nat) (last : Bool) : Ebbs s (s.terminate k last) := by
  unfold terminate
  split
  · exact finishStop_ebbs ..
  · split
    · exact finishStop_ebbs ..
    · exact ⟨.inl rfl, onAttempt_length ..⟩

theorem continueClosing_ebbs (s : State) (k : Nat) (last : Bool) (c : Lsp.Client)
    (progress : Lsp.Client.Closing) : Ebbs s (s.continueClosing k last c progress) := by
  unfold continueClosing
  split
  · exact (withClient_ebbs ..).trans (terminate_ebbs ..)
  · exact ⟨.inl rfl, onAttempt_length ..⟩

theorem stopStep_ebbs (h : s.stopStep? = some t) : Ebbs s t := by
  unfold stopStep? at h
  split at h
  · cases h
  · split at h
    · obtain rfl := Option.some.inj h
      exact ⟨.inl rfl, rfl⟩
    · cases h
  · split at h
    · obtain rfl := Option.some.inj h
      exact takeSlot_ebbs s
    · cases h
  · split at h
    · obtain rfl := Option.some.inj h
      exact terminate_ebbs ..
    · obtain rfl := Option.some.inj h
      exact continueClosing_ebbs ..
  · split at h
    · obtain rfl := Option.some.inj h
      exact terminate_ebbs ..
    · obtain ⟨⟨c, progress⟩, -, rfl⟩ := Option.map_eq_some_iff.mp h
      exact continueClosing_ebbs ..
  · split at h
    · obtain rfl := Option.some.inj h
      exact finishStop_ebbs ..
    · obtain ⟨⟨m, effects⟩, -, rfl⟩ := Option.map_eq_some_iff.mp h
      exact (onAttempt_ebbs ..).trans (finishStop_ebbs ..)

theorem fire_ebbs (s : State) (timer : Timer) : Ebbs s (s.fire timer) := by
  unfold fire
  split
  · exact onAttempt_ebbs ..
  · exact onAttempt_ebbs ..
  · split
    · exact continueClosing_ebbs ..
    · exact .refl s
  · split
    · exact (onProcess_ebbs ..).trans (finishStop_ebbs ..)
    · exact .refl s

/-- What the task of an attempt does next, except for its promotion. -/
theorem startStep_ebbs {k : Nat} (h : s.startStep? p k = some t)
    (hPromotion : s.phase? k = some .promoting → s.status ≠ .starting) : Ebbs s t := by
  have hFails (k : Nat) (c : Lsp.Client) (e : Error) : Ebbs s ((s.withClient k c).failStart k e) :=
    (withClient_ebbs ..).trans (failStart_ebbs ..)
  have hEnters (k : Nat) (c : Lsp.Client) (phase : Phase) :
      Ebbs s ((s.withClient k c).enter k phase) := (withClient_ebbs ..).trans (onAttempt_ebbs ..)
  unfold startStep? at h
  split at h
  · cases h
  · rename_i a hAttempt
    split at h
    · obtain rfl := Option.some.inj h
      unfold askHandshake
      split
      · exact failStart_ebbs ..
      · split
        · exact hFails ..
        · exact hEnters ..
    · obtain ⟨⟨c, outcome⟩, -, rfl⟩ := Option.map_eq_some_iff.mp h
      simp only [finishHandshake]
      split
      · exact hFails ..
      · exact hEnters ..
    · obtain rfl := Option.some.inj h
      unfold configure
      split
      · exact hFails ..
      · exact hEnters ..
    · rename_i hPhase
      split at h
      · obtain rfl := Option.some.inj h
        rw [promote, if_neg (hPromotion (by simp [phase?, hAttempt, hPhase]))]
        exact onAttempt_ebbs ..
      · cases h
    · cases h

theorem launched_ebbs {k : Nat}
    {result : Except Error (Stream.Transport × Option Process.Manager)}
    (h : s.launched k result = some t) : Ebbs s t := by
  unfold launched at h
  split at h
  · split at h
    · obtain rfl := Option.some.inj h
      exact onAttempt_ebbs ..
    · obtain rfl := Option.some.inj h
      exact failStart_ebbs ..
  · cases h

theorem deliver_ebbs {id : Nat} (h : s.deliver? p id = some t) : Ebbs s t := by
  unfold deliver? at h
  split at h
  · obtain ⟨c, -, rfl⟩ := Option.map_eq_some_iff.mp h
    split <;> exact (withClient_ebbs ..).trans ⟨.inl rfl, rfl⟩
  · cases h

theorem acquire_ebbs {id : Nat} (h : s.acquire? id = some t) : Ebbs s t := by
  have hDelivery (delivery : Delivery) : Ebbs s (s.setDelivery id delivery) := ⟨.inl rfl, rfl⟩
  unfold acquire? at h
  split at h
  · split at h
    · split at h
      · split at h
        · exact Option.some.inj h ▸ hDelivery _
        · exact Option.some.inj h ▸ hDelivery _
      · exact Option.some.inj h ▸ hDelivery _
    · cases h
  · cases h

/-- An accepted start begins an attempt, and nothing else does. -/
theorem start_eq {path : Path} {root : Option Path} (h : s.start path root = .ok t) :
    s.status.isSettled = true ∧
      t = { s with
        status := .starting, server := some ⟨path, [], root⟩
        attempts := s.attempts ++ [.launch ⟨path, [], root⟩]
        startTask := some s.attempts.length } := by
  unfold start at h
  split at h
  · rename_i hSettled
    exact ⟨hSettled, (Except.ok.inj h).symm⟩
  · cases h

theorem promote_eq {k : Nat} (h : s.startStep? p k = some t)
    (hPhase : s.phase? k = some .promoting) : s.slotFree = true ∧ t = s.promote k := by
  obtain ⟨a, hAttempt, hPromoting⟩ := Option.map_eq_some_iff.mp hPhase
  simp only [startStep?, hAttempt, hPromoting] at h
  split at h
  · rename_i hFree
    exact ⟨hFree, (Option.some.inj h).symm⟩
  · cases h

theorem promote_length (s : State) (k : Nat) :
    (s.promote k).attempts.length = s.attempts.length := by
  have hRelease : s.releaseSlot.attempts.length = s.attempts.length := by
    unfold releaseSlot
    split
    · exact onAttempt_length ..
    · rfl
  unfold promote
  split
  · exact (onAttempt_length ..).trans hRelease
  · exact onAttempt_length ..

/-- A step is a start, or a promotion, or it brings nothing up. -/
theorem next?_cases {event : Event} (h : s.next? p event = some t) :
    (∃ path root, event = .start path root ∧ s.start path root = .ok t) ∨
      (∃ k, event = .task k ∧ s.phase? k = some .promoting ∧ s.status = .starting ∧
        t = s.promote k) ∨ Ebbs s t := by
  cases event with
  | start path root =>
    simp only [next?] at h
    split at h
    · refine .inl ⟨path, root, rfl, ?_⟩
      cases hStart : s.start path root with
      | ok t' => rw [hStart] at h; exact congrArg _ (Option.some.inj h)
      | error e => rw [hStart] at h; cases h
    · cases h
  | task k =>
    by_cases hPromotion : s.phase? k = some .promoting ∧ s.status = .starting
    · exact .inr (.inl ⟨k, rfl, hPromotion.1, hPromotion.2, (promote_eq h hPromotion.1).2⟩)
    · exact .inr (.inr (startStep_ebbs h fun hPhase hStatus => hPromotion ⟨hPhase, hStatus⟩))
  | launched k result => exact .inr (.inr (launched_ebbs h))
  | stopStep => exact .inr (.inr (stopStep_ebbs h))
  | acquire id => exact .inr (.inr (acquire_ebbs h))
  | deliver id => exact .inr (.inr (deliver_ebbs h))
  | stop | changeConfiguration | forward =>
    simp only [next?] at h
    split at h
    · exact .inr (.inr (Option.some.inj h ▸ ⟨.inl rfl, rfl⟩))
    · cases h
  | exit k code =>
    simp only [next?] at h
    split at h
    · exact .inr (.inr (Option.some.inj h ▸ exited_ebbs s code))
    · cases h
  | fire timer =>
    simp only [next?] at h
    split at h
    · exact .inr (.inr (Option.some.inj h ▸ fire_ebbs s timer))
    · cases h
  | takeResult id =>
    obtain ⟨⟨u, result⟩, hTaken, rfl⟩ := Option.map_eq_some_iff.mp h
    unfold takeResult? at hTaken
    split at hTaken
    · cases hTaken
      exact .inr (.inr ⟨.inl rfl, rfl⟩)
    · cases hTaken
  | loop k =>
    obtain ⟨c, -, hLoop⟩ := Option.bind_eq_some_iff.mp h
    obtain ⟨⟨c', notifications⟩, -, rfl⟩ := Option.map_eq_some_iff.mp hLoop
    exact .inr (.inr ⟨.inl rfl, onAttempt_length ..⟩)
  | tellExit k =>
    obtain ⟨m, -, hTell⟩ := Option.bind_eq_some_iff.mp h
    obtain ⟨⟨m', exit⟩, -, rfl⟩ := Option.map_eq_some_iff.mp hTell
    exact .inr (.inr ((onAttempt_ebbs ..).trans (exited_ebbs ..)))
  | connection | obey => exact .inr (.inr (Option.some.inj h ▸ onAttempt_ebbs ..))
  | sawExit | errors | errorsEnd => exact .inr (.inr (Option.some.inj h ▸ onProcess_ebbs ..))
  | line text => exact .inr (.inr (Option.some.inj h ▸ ⟨.inl rfl, rfl⟩))

theorem isUp_of_isSettled {status : Status} (h : status.isSettled = true) :
    status.isUp = false := by
  cases status <;> simp_all [Status.isSettled, Status.isUp]

/-- A step makes an attempt behind a settled status, or it keeps the number of attempts, and then
the session is up after it only with the status that it had, or by promotion. -/
theorem next?_attempts {event : Event} (h : s.next? p event = some t) :
    s.status.isSettled = true ∧ t.attempts.length = s.attempts.length + 1 ∨
      t.attempts.length = s.attempts.length ∧
        (t.status.isUp = true →
          t.status = s.status ∨ s.status = .starting ∧ t.status = .running) := by
  rcases next?_cases h with ⟨path, root, -, hStart⟩ | ⟨k, -, -, hStarting, rfl⟩ | hEbbs
  · obtain ⟨hSettled, rfl⟩ := start_eq hStart
    exact .inl ⟨hSettled, List.length_append⟩
  · exact .inr ⟨promote_length s k, fun _ => .inr ⟨hStarting, by simp [promote, hStarting]⟩⟩
  · exact .inr ⟨hEbbs.length, fun hUp => .inl (hEbbs.isUp hUp)⟩

end State

/-- What can be done only once behind each start is done, behind starts after the first, less often
than there are attempts: `high` tells of a status that it can still be done, only a start makes that
so, and doing it ends that. -/
theorem Run.countP_lt {p : Profile} {s : State} {trace : List Step}
    (hRun : Run p (.create p) trace s) (high : Status → Bool) (uses : Step → Bool)
    (hSettled : ∀ status, status.isSettled = true → high status = false)
    (hKeeps : ∀ {s t : State} {event : Event}, s.next? p event = some t →
      t.attempts.length = s.attempts.length → high t.status = true → high s.status = true)
    (hUses : ∀ step : Step, step.before.next? p step.event = some step.after → uses step = true →
      1 < step.before.attempts.length ∧
        step.after.attempts.length = step.before.attempts.length ∧
        high step.before.status = true ∧ high step.after.status = false) :
    s.attempts.length ≤ 1 ∧ trace.countP uses = 0 ∨
      trace.countP uses + (high s.status).toNat < s.attempts.length := by
  induction hRun with
  | start => exact .inl ⟨Nat.zero_le _, rfl⟩
  | @step trace t u event prior last ih =>
    rw [List.countP_append, List.countP_singleton]
    -- A use spends what `high` adds to the sum; a start adds one attempt, and `high` at most one.
    by_cases hUse : uses ⟨t, event, u⟩ = true
    · obtain ⟨hLater, hLength, hBefore, hAfter⟩ := hUses _ last hUse
      simp only at hLater hLength hBefore hAfter
      rw [hBefore, Bool.toNat_true] at ih
      rw [if_pos hUse, hAfter, Bool.toNat_false, hLength]
      omega
    · rw [if_neg hUse]
      rcases State.next?_attempts last with ⟨hStart, hLength⟩ | ⟨hLength, -⟩
      · have hBound := Bool.toNat_le (high u.status)
        rw [hSettled _ hStart, Bool.toNat_false] at ih
        omega
      · have hLe : (high u.status).toNat ≤ (high t.status).toNat := by
          cases h : high u.status with
          | false => exact Nat.zero_le _
          | true => exact Nat.le_of_eq (by rw [hKeeps last hLength h])
        omega

end EditorBridge.Session
