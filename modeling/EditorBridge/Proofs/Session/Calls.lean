import EditorBridge.Proofs.Session.Forwarding
import EditorBridge.Session.Call
/-!
The calls by which a server is told something, from their beginning to their reply. While no session
is running they write nothing, and they reply that nothing was sent; but a change of a file without a
URI is refused before anybody looks at the status.
-/
namespace EditorBridge.Session

/-- The reply to a call of which nothing is sent. -/
def Call.unsent : Call → Reply
  | .changeConfiguration _ => .done
  | .watchedFiles _ => .count 0
  | .opened .. => .told false

/-- The event by which a call begins to be forwarded. -/
def Call.event (message : Message) : Call → Event
  | .changeConfiguration settings => .changeConfiguration settings
  | _ => .forward message

/-- The first file among changes that has no URI. -/
def unnamed? (changes : List (Path × Int)) : Option Path :=
  (changes.find? fun c => (Uri.ofPath? c.1).isNone).map (·.1)

namespace State

/-- The changes that the filter accepts, from the root of the latest start. -/
def watched (p : Profile) (s : State) (changes : List (Path × Int)) : List (Path × Int) :=
  changes.filter fun c => p.options.fileEvents.accepts c.1 (s.server.bind (·.cwd))

/-- The file that a call cannot name, whether or not a session is running. -/
def stumbles? (p : Profile) (s : State) : Call → Option Path
  | .watchedFiles changes => unnamed? (s.watched p changes)
  | _ => none

end State

/-- What a call finds out at once. -/
inductive Begins (p : Profile) (s : State) (call : Call) : Opening → Prop where
  | refused {path : Path} (hUnnamed : s.stumbles? p call = some path) :
      Begins p s call (.answered (.error (.lsp (.noUri ⟨path⟩))))
  | idle (hNamed : s.stumbles? p call = none) : Begins p s call (.answered (.ok call.unsent))
  | forwarded {t : State} {message : Message} {whenSent : Reply}
      (hNamed : s.stumbles? p call = none) (hUnsent : whenSent.unsent = call.unsent)
      (hForwards : t.forwards = s.forwards ++ [⟨s.nextForward, message, .waiting⟩])
      (hSame : t.attempts = s.attempts)
      (hStep : s.stop = none → s.next? p (call.event message) = some t) :
      Begins p s call (.forwarded t s.nextForward whenSent)

/-- A call that waits for its forwarding, with the steps of the manager since it was made. -/
inductive Waits (p : Profile) (s : State) (call : Call) (id : Nat) (whenSent : Reply) :
    List Step → State → Prop where
  | begun {message : Message} {t u : State} {trace : List Step}
      (hCall : s.call p call = .forwarded t id whenSent)
      (hFirst : s.next? p (call.event message) = some t) (hRun : Run p t trace u)
      (hUntaken : ∀ step ∈ trace, step.event ≠ .takeResult id) :
      Waits p s call id whenSent (⟨s, call.event message, t⟩ :: trace) u

/-- A call from its beginning to its reply, with the steps of the manager meanwhile. -/
inductive Served (p : Profile) (s : State) (call : Call) :
    List Step → Except Error Reply → State → Prop where
  | answered {result : Except Error Reply} (h : s.call p call = .answered result) :
      Served p s call [] result s
  | forwarded {id : Nat} {whenSent : Reply} {trace : List Step} {u v : State}
      {result : Except Error Bool} (hWaits : Waits p s call id whenSent trace u)
      (hTaken : u.takeResult? id = some (v, result)) :
      Served p s call (trace ++ [⟨u, .takeResult id, v⟩]) (result.map whenSent.ifSent) v

/-- A call gets its reply. It can be made whenever the manager is not being stopped, and whatever
happens while it waits, it can be brought to its end, with the status and the session as they are
then. -/
structure Call.Ends (p : Profile) (s : State) (call : Call) : Prop where
  atOnce : s.stop = none → ∃ trace result t, Served p s call trace result t ∧
    ∀ step ∈ trace, step.before.status = s.status ∧ ∀ k, s.Serves k → step.before.Serves k
  goesOn : ∀ {id whenSent trace u}, Waits p s call id whenSent trace u →
    ∃ more result t, Served p s call (trace ++ more) result t ∧
      ∀ step ∈ more, step.before.status = u.status ∧ ∀ k, u.Serves k → step.before.Serves k

variable {p : Profile} {s t u : State} {call : Call} {id : Nat} {whenSent : Reply}
  {past trace : List Step} {result : Except Error Reply}

/-- The URIs of files are found one after the other, up to the first file that has none. -/
theorem named_cases (changes : List (Path × Int)) :
    (∃ path, unnamed? changes = some path ∧
      (changes.mapM fun c => (·, c.2) <$> Lsp.fileUri c.1) = .error ⟨path⟩) ∨
    unnamed? changes = none ∧ ∃ events : List (String × Int),
      (changes.mapM fun c => (·, c.2) <$> Lsp.fileUri c.1) = .ok events ∧
      changes.map (fun c => (Uri.ofPath? c.1, c.2)) = events.map fun e => (some e.1, e.2) := by
  induction changes with
  | nil => exact .inr ⟨rfl, [], rfl, rfl⟩
  | cons change changes ih =>
    obtain ⟨path, kind⟩ := change
    simp only [List.mapM_cons, unnamed?, List.find?_cons]
    cases hUri : Uri.ofPath? path with
    | none => exact .inl ⟨path, by simp, by simp [Lsp.fileUri, hUri]; rfl⟩
    | some uri =>
      have hFile : Lsp.fileUri path = .ok uri := by simp [Lsp.fileUri, hUri]
      rcases ih with ⟨other, hOther, hError⟩ | ⟨hNone, events, hEvents, hNamed⟩
      · refine .inl ⟨other, hOther, ?_⟩
        rw [hFile, hError]
        rfl
      · refine .inr ⟨hNone, (uri, kind) :: events, ?_, ?_⟩
        · rw [hFile, hEvents]
          rfl
        · simp [hUri, hNamed]

theorem State.begins (p : Profile) (s : State) (call : Call) : Begins p s call (s.call p call) := by
  have hForward (message : Message) (hStop : s.stop = none) :
      s.next? p (.forward message) = some (s.forward message).1 := if_pos (by simp [hStop])
  cases call with
  | changeConfiguration settings =>
    have hChange (hStop : s.stop = none) :
        s.next? p (.changeConfiguration settings) = some (s.changeConfiguration settings).1 :=
      if_pos (by simp [hStop])
    exact .forwarded rfl rfl rfl rfl hChange
  | watchedFiles changes =>
    rcases named_cases (s.watched p changes) with
      ⟨path, hUnnamed, hError⟩ | ⟨hNamed, events, hEvents, -⟩
    · have hAccepted : s.acceptedChanges p changes = .error ⟨path⟩ := hError
      rw [State.call, hAccepted]
      exact .refused hUnnamed
    · have hAccepted : s.acceptedChanges p changes = .ok events := hEvents
      rw [State.call, hAccepted]
      cases events with
      | nil => exact .idle hNamed
      | cons event rest => exact .forwarded hNamed rfl rfl rfl (hForward _)
  | opened path languageId version text =>
    rw [State.call]
    split
    · exact .forwarded rfl rfl rfl rfl (hForward _)
    · exact .idle rfl

/-- What has become of a call that waits, by the steps of its own forwarding. -/
structure Waits.Account (p : Profile) (s : State) (call : Call) (id : Nat) (whenSent : Reply)
    (trace : List Step) (u : State) (message : Message) (own : List Step) (delivery : Delivery) :
    Prop where
  number : id = s.nextForward
  named : s.stumbles? p call = none
  unsent : whenSent.unsent = call.unsent
  told : ∃ t, s.call p call = .forwarded t id whenSent ∧
    t.forward? id = some ⟨id, message, .waiting⟩
  opens : ∃ first, trace.filter (·.forwards id) = first :: own ∧
    first.after.attempts = first.before.attempts
  found : u.forward? id = some ⟨id, message, delivery⟩
  carried : Carried p id message own delivery

theorem Queued.forward?_fresh {message : Message} (h : Queued s)
    (hForwards : t.forwards = s.forwards ++ [⟨s.nextForward, message, .waiting⟩]) :
    t.forward? s.nextForward = some ⟨s.nextForward, message, .waiting⟩ := by
  have hNone : s.forwards.find? (·.id == s.nextForward) = none := by
    refine List.find?_eq_none.mpr fun f hMem => ?_
    have hLess := h.numbered f.id (List.mem_map_of_mem hMem)
    simp only [beq_iff_eq]
    omega
  rw [State.forward?, hForwards, List.find?_append, hNone]
  simp

theorem Waits.account (hWaits : Waits p s call id whenSent trace u)
    (hPast : Run p (.create p) past s) :
    ∃ message own delivery, Account p s call id whenSent trace u message own delivery := by
  cases hWaits with
  | @begun told t _ _ hCall hFirst hRun hUntaken =>
    have hBegins := s.begins p call
    rw [hCall] at hBegins
    cases hBegins with
    | forwarded hNamed hUnsent hForwards hSame =>
      have hFind := hPast.queued.forward?_fresh hForwards
      obtain ⟨delivery, hFound, hCarried⟩ := (hPast.step hFirst).carried hRun hFind hUntaken
      have hOpens : (⟨s, call.event told, t⟩ : Step).forwards s.nextForward = true := by
        cases call <;> simp [Step.forwards, Call.event, State.forwarding?]
      refine ⟨_, _, delivery, rfl, hNamed, hUnsent, ⟨t, hCall, hFind⟩,
        ⟨⟨s, call.event told, t⟩, ?_, hSame⟩, hFound, hCarried⟩
      rw [List.filter_cons, if_pos hOpens]

theorem Waits.run (hWaits : Waits p s call id whenSent trace u) : Run p s trace u := by
  cases hWaits with
  | begun _ hFirst hRun => exact Run.trans (.step .start hFirst) hRun

/-- A call that waits goes on waiting while only locks are taken and notifications are sent. -/
theorem Waits.passing {more : List Step} (hWaits : Waits p s call id whenSent trace u)
    (hPassing : Passing p u more t) : Waits p s call id whenSent (trace ++ more) t := by
  cases hWaits with
  | begun hCall hFirst hRun hUntaken =>
    refine .begun hCall hFirst (hRun.trans hPassing.run) fun step hMem => ?_
    rcases List.mem_append.mp hMem with hOld | hNew
    · exact hUntaken step hOld
    · obtain ⟨other, h | h⟩ := hPassing.each step hNew <;> simp [h]

/-- A call that waits can be brought to its end. -/
theorem Waits.ends (hWaits : Waits p s call id whenSent trace u)
    (hPast : Run p (.create p) past s) :
    ∃ more result t, Served p s call (trace ++ more) result t ∧
      ∀ step ∈ more, step.before.status = u.status ∧ ∀ k, u.Serves k → step.before.Serves k := by
  obtain ⟨message, own, delivery, hAccount⟩ := hWaits.account hPast
  obtain ⟨more, t, result, hPassing, hDone⟩ :=
    (hPast.trans hWaits.run).forwarding_passes hAccount.found
  have hTaken : t.takeResult? id =
      some ({ t with forwards := t.forwards.filter (·.id != id) }, result) :=
    State.takeResult_eq.mpr ⟨_, hDone, rfl, rfl⟩
  have hServed := Served.forwarded (hWaits.passing hPassing) hTaken
  rw [List.append_assoc] at hServed
  obtain ⟨hLast, hEach⟩ := hPassing.keeps
  refine ⟨_, _, _, hServed, fun step hMem => ?_⟩
  rcases List.mem_append.mp hMem with hOld | hNew
  · exact hEach step hOld
  · rw [List.mem_singleton.mp hNew]
    exact hLast

/-- The step that begins a call changes neither the status nor the session. -/
theorem Call.event_keeps {message : Message} (h : s.next? p (call.event message) = some t) :
    t.status = s.status ∧ ∀ k, s.Serves k → t.Serves k := by
  cases call <;>
  · simp only [Call.event, State.next?] at h
    split at h
    · obtain rfl := Option.some.inj h
      exact ⟨rfl, fun k hServes => ⟨hServes.running, hServes.slot, hServes.connected⟩⟩
    · cases h

theorem Run.call_ends (hPast : Run p (.create p) past s) (call : Call) : call.Ends p s where
  atOnce hStop := by
    have hBegins := s.begins p call
    generalize hCall : s.call p call = opening at hBegins
    cases hBegins with
    | refused | idle => exact ⟨[], _, s, .answered hCall, by simp⟩
    | @forwarded t message whenSent _ _ _ _ hStep =>
      have hFirst := hStep hStop
      obtain ⟨hStatus, hServes⟩ := Call.event_keeps hFirst
      obtain ⟨more, result, v, hServed, hMore⟩ :=
        (Waits.begun hCall hFirst .start (by simp)).ends hPast
      refine ⟨_, result, v, hServed, fun step hMem => ?_⟩
      rcases List.mem_cons.mp hMem with rfl | hLater
      · exact ⟨rfl, fun k => id⟩
      · obtain ⟨hSame, hUp⟩ := hMore step hLater
        exact ⟨hSame.trans hStatus, fun k hServed => hUp k (hServes k hServed)⟩
  goesOn hWaits := hWaits.ends hPast

theorem Served.run (hServed : Served p s call trace result t) : Run p s trace t := by
  cases hServed with
  | answered => exact .start
  | forwarded hWaits hTaken =>
    exact hWaits.run.step (congrArg (Option.map Prod.fst) hTaken)

/-- How a call has come to its reply: at once, or with the result of its forwarding. -/
theorem Served.account (hServed : Served p s call trace result t)
    (hPast : Run p (.create p) past s) :
    (trace = [] ∧ t = s ∧ s.call p call = .answered result) ∨
    ∃ whenSent earlier u message own sent last,
      Waits.Account p s call s.nextForward whenSent earlier u message own (.done sent) ∧
      result = sent.map whenSent.ifSent ∧ trace = earlier ++ [last] ∧
      last.after.attempts = last.before.attempts := by
  cases hServed with
  | answered h => exact .inl ⟨rfl, rfl, h⟩
  | @forwarded id whenSent earlier u t sent hWaits hTaken =>
    obtain ⟨message, own, delivery, hAccount⟩ := hWaits.account hPast
    obtain rfl := hAccount.number
    obtain ⟨f, hFind, hDone, rfl⟩ := State.takeResult_eq.mp hTaken
    obtain rfl := Option.some.inj (hAccount.found.symm.trans hFind)
    obtain rfl : delivery = .done sent := hDone
    exact .inr ⟨_, _, _, message, own, _, ⟨u, _, _⟩, hAccount, rfl, rfl, rfl⟩

theorem Waits.Account.mem_of_own {message : Message} {own : List Step} {delivery : Delivery}
    (h : Account p s call id whenSent trace u message own delivery) {step : Step}
    (hMem : step ∈ own) : step ∈ trace := by
  obtain ⟨first, hFilter, -⟩ := h.opens
  have hKept : step ∈ trace.filter (·.forwards id) := hFilter ▸ List.mem_cons_of_mem first hMem
  exact (List.mem_filter.mp hKept).1

/-- A forwarding that finds no session that is running sends nothing. -/
theorem Carried.passes_by {message : Message} {own : List Step} {sent : Except Error Bool}
    (h : Carried p id message own (.done sent))
    (hNot : ∀ step ∈ own, step.event = .acquire id → step.before.status ≠ .running) :
    sent = .ok false ∧ ∀ step ∈ own, step.after.attempts = step.before.attempts := by
  generalize hDelivery : Delivery.done sent = delivery at h
  cases h with
  | waiting | holding => cases hDelivery
  | passed _ hSame =>
    cases hDelivery
    exact ⟨rfl, by simpa using hSame⟩
  | sent hRunning => exact absurd hRunning (hNot _ List.mem_cons_self rfl)

/-- In every run, and for every call: if no session is running when the call looks at the status,
nothing that was launched is touched by it, and its reply is that nothing was sent, exactly if no
change that it would tell is of a file without a URI. The first such file is refused otherwise. And
every call gets its reply. -/
theorem calls_silent_unless_running (hRun : Run p (.create p) past s) (call : Call) :
    (∀ trace result t, Served p s call trace result t →
      (∀ step ∈ trace, step.event = .acquire s.nextForward → step.before.status ≠ .running) →
        (∀ step ∈ trace, step.forwards s.nextForward = true →
          step.after.attempts = step.before.attempts) ∧
        (result = .ok call.unsent ↔ s.stumbles? p call = none) ∧
        ∀ path, s.stumbles? p call = some path → result = .error (.lsp (.noUri ⟨path⟩))) ∧
      call.Ends p s := by
  refine ⟨fun trace result t hServed hNot => ?_, hRun.call_ends call⟩
  rcases hServed.account hRun with ⟨rfl, rfl, hCall⟩ |
    ⟨whenSent, earlier, u, message, own, sent, last, hAccount, rfl, rfl, hLast⟩
  · have hBegins := t.begins p call
    rw [hCall] at hBegins
    cases hBegins with
    | refused hUnnamed => simp [hUnnamed]
    | idle hNamed => simp [hNamed]
  · obtain ⟨rfl, hOwn⟩ := hAccount.carried.passes_by fun step hMem =>
      hNot step (List.mem_append_left _ (hAccount.mem_of_own hMem))
    have hReply : (Except.ok false : Except Error Bool).map whenSent.ifSent = .ok call.unsent :=
      congrArg Except.ok hAccount.unsent
    refine ⟨fun step hMem hForwards => ?_, by simp [hReply, hAccount.named],
      by simp [hAccount.named]⟩
    -- A step of the call has begun it, belongs to its forwarding, or has taken the result.
    rcases List.mem_append.mp hMem with hEarlier | hTaken
    · obtain ⟨first, hFilter, hFirst⟩ := hAccount.opens
      have hKept : step ∈ first :: own := hFilter ▸ List.mem_filter.mpr ⟨hEarlier, hForwards⟩
      rcases List.mem_cons.mp hKept with rfl | hLater
      · exact hFirst
      · exact hOwn step hLater
    · rw [List.mem_singleton.mp hTaken]
      exact hLast

/-- A profile of a client that opens the documents and watches the files of one language. -/
def watchingProfile : Profile :=
  { plainProfile with
    options := ⟨[.ofLanguage "java"], "java", ⟨(Glob.parse "**/*.java").toOption.toList⟩, "output",
      .never⟩ }

/-- A server has exited before its session was up. -/
def exitedEarly : Option (List Step × State) :=
  (State.create watchingProfile).follow? watchingProfile
    [.start (.ofString "/server") none, .launched 0 (.ok (.fresh, none)), .task 0,
      .exit 0 (some 1)]

theorem exitedEarly_shown :
    exitedEarly.map (fun (_, s) => (s.status, s.stop.isNone)) =
      some (.failed "language server exited unexpectedly with code 1", true) := by
  decide +kernel

theorem exitedEarly_silent :
    ∃ past s trace t, exitedEarly = some (past, s) ∧
      s.status = .failed "language server exited unexpectedly with code 1" ∧
      Served watchingProfile s (.opened (.ofString "a.java") "java" 1 "x") trace
        (.ok (.told false)) t ∧
      ∀ step ∈ trace, step.forwards s.nextForward = true →
        step.after.attempts = step.before.attempts := by
  obtain ⟨⟨past, s⟩, hEval, hShown⟩ := Option.map_eq_some_iff.mp exitedEarly_shown
  obtain ⟨hFailed, hStop⟩ := Prod.mk.inj hShown
  obtain ⟨hSilent, hEnds⟩ := calls_silent_unless_running (State.run_of_follow? hEval)
    (.opened (.ofString "a.java") "java" 1 "x")
  obtain ⟨trace, result, t, hServed, hStatus⟩ := hEnds.atOnce (Option.isNone_iff_eq_none.mp hStop)
  obtain ⟨hUntouched, hReply, -⟩ := hSilent trace result t hServed fun step hMem _ => by
    rw [(hStatus step hMem).1]
    exact hFailed ▸ nofun
  obtain rfl := hReply.mpr rfl
  exact ⟨past, s, trace, t, hEval, hFailed, hServed, hUntouched⟩

def relativeChange : Call := .watchedFiles [(.ofString "src/Main.java", 2)]

theorem relativeChange_stumbles :
    (State.create watchingProfile).stumbles? watchingProfile relativeChange =
      some (.ofString "src/Main.java") := by
  decide +kernel

theorem relative_change_refused :
    ¬ ∀ (p : Profile) (past trace : List Step) (s t : State) (call : Call)
      (result : Except Error Reply), Run p (.create p) past s → Served p s call trace result t →
        (∀ step ∈ trace, step.before.status ≠ .running) → s.status ≠ .running →
        result = .ok call.unsent := by
  intro h
  have hBegins := (State.create watchingProfile).begins watchingProfile relativeChange
  generalize hCall : (State.create watchingProfile).call watchingProfile relativeChange = opening
    at hBegins
  cases hBegins with
  | refused =>
    have hReply := h watchingProfile [] [] _ _ _ _ .start (.answered hCall) (by simp) (by decide)
    cases hReply
  | idle hNamed => simp [relativeChange_stumbles] at hNamed
  | forwarded hNamed => simp [relativeChange_stumbles] at hNamed

end EditorBridge.Session
