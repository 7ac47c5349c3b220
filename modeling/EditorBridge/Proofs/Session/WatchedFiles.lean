import EditorBridge.Proofs.Rpc.Texts
import EditorBridge.Proofs.Session.Calls
/-!
What a running session tells its server of changed files. The changes that the filter accepts, from
the root of the latest start, are told in one notification, in their order, or the first of them
whose file has no URI is refused and nothing is told. What is told is written on the connection
behind everything that was told before.
-/
namespace EditorBridge.Session

/-- The root of the latest start in a run. -/
def latestRoot? (trace : List Step) : Option Path :=
  (trace.reverse.findSome? fun step =>
    match step.event with
    | .start _ root => some root
    | _ => none).join

/-- The notification of changes of files, each with its URI. -/
def changesNotice (events : List (String × Int)) : Rpc.Utterance :=
  .notice Lsp.methods.watchedFiles (some (Lsp.watchedFilesParams events))

/-- What the notification says, as the server reads it. -/
def changesEntries (events : List (String × Int)) : Keyed (Option Json) :=
  [("jsonrpc", some (.string "2.0")), ("method", some (.string "workspace/didChangeWatchedFiles")),
    ("params", some (.object [("changes", .array (events.map fun e =>
      .object [("type", .int e.2), ("uri", .string e.1)]))]))]

variable {p : Profile} {s t u v : State} {event : Event} {k id : Nat} {past trace : List Step}
  {message : Message} {events : List (String × Int)} {c d : Lsp.Client}

theorem latestRoot?_snoc (trace : List Step) (step : Step) :
    latestRoot? (trace ++ [step]) = match step.event with
      | .start _ root => root
      | _ => latestRoot? trace := by
  rw [latestRoot?, List.reverse_append, List.reverse_singleton, List.singleton_append,
    List.findSome?_cons]
  cases step.event with
  | start path root => rfl
  | _ => rfl

/-- The files are looked at from the root of the latest start. -/
theorem Run.root_eq (hRun : Run p (.create p) trace s) :
    s.server.bind (·.cwd) = latestRoot? trace := by
  induction hRun with
  | start => rfl
  | @step trace t u event prior last ih =>
    rw [latestRoot?_snoc, State.next?_server last]
    cases event with
    | start path root => rfl
    | _ => exact ih

/-- The members of a change stand in the order of their keys. -/
theorem sorted_change (kind uri : Json) : Keyed.Sorted [("type", kind), ("uri", uri)] :=
  List.pairwise_pair.mpr (show "type" < "uri" by decide)

theorem watchedFilesParams_eq (events : List (String × Int)) :
    Lsp.watchedFilesParams events = .object [("changes", .array (events.map fun e =>
      .object [("type", .int e.2), ("uri", .string e.1)]))] := by
  have hChange : ∀ e : String × Int, Json.ofMembers [("type", .int e.2), ("uri", .string e.1)] =
      .object [("type", .int e.2), ("uri", .string e.1)] :=
    fun e => congrArg Json.object (sorted_change _ _).ofEntries_eq
  simp only [Lsp.watchedFilesParams, hChange]
  rfl

/-- The notification of changes whose kinds are numbers of 32 bits is read as what it says. -/
theorem isRecord_changesNotice
    (hKinds : ∀ e ∈ events, -Int.pow 2 31 ≤ e.2 ∧ e.2 < Int.pow 2 31) :
    Json.IsRecord (changesNotice events).text (changesEntries events) := by
  have hChange : ∀ e ∈ events,
      (Json.object [("type", .int e.2), ("uri", .string e.1)]).ReadsBack 3 := by
    intro e hMem
    apply Json.readsBack_object (by decide) (sorted_change _ _)
    simp only [List.forall_mem_cons]
    exact ⟨Json.readsBack_int32 (hKinds e hMem), Json.readsBack_string _, by simp⟩
  have hParams : (Lsp.watchedFilesParams events).ReadsBack 1 := by
    rw [watchedFilesParams_eq]
    apply Json.readsBack_object (by decide) (List.pairwise_singleton ..)
    simp only [List.mem_singleton, forall_eq]
    apply Json.readsBack_array (by decide)
    intro v hMem
    obtain ⟨e, hEvent, rfl⟩ := List.mem_map.mp hMem
    exact hChange e hEvent
  have hText := Rpc.Utterance.isRecord_text (u := changesNotice events) ⟨nofun, by
    rintro v ⟨⟩
    exact hParams⟩
  have hEntries : (changesNotice events).entries = changesEntries events := by
    simp only [changesNotice, Rpc.Utterance.entries, changesEntries, watchedFilesParams_eq]
    rfl
  rwa [hEntries] at hText


/-- A client that is up takes a notification of its caller. -/
theorem tellInitialized_of_up {method : String} {params : Json} (hInitialized : c.initialized = true)
    (hOpen : c.rpc.isOpen = true) (hPhase : c.rpc.phase = .running) :
    ∃ d, c.tellInitialized method params = (d, .ok ()) := by
  have hRefusal : c.rpc.refusal? = none := by simp [Rpc.Client.refusal?, hOpen, hPhase]
  simp [Lsp.Client.tellInitialized, hInitialized, Lsp.Client.tell, Rpc.Client.notify,
    Rpc.Client.enqueue, hRefusal]

theorem Step.sent_of_same {step : Step} (h : step.after.attempts = step.before.attempts) (k : Nat) :
    step.sent k = [] := by
  have hClient : step.after.client? k = step.before.client? k := by
    rw [State.client?, h, State.client?]
  rw [Step.sent, hClient]
  cases step.before.client? k with
  | none => rfl
  | some c => simp [Rpc.Client.taken]

/-- What a step tells that changes one client only. -/
theorem Step.sent_withClient (hClient : u.client? k = some c)
    (hAfter : v.attempts = (u.withClient k d).attempts) (j : Nat) :
    (⟨u, event, v⟩ : Step).sent j = if j = k then c.rpc.taken d.rpc else [] := by
  have hAfter' : v.client? j = (u.withClient k d).client? j := by
    rw [State.client?, hAfter, State.client?]
  rw [Step.sent, hAfter']
  dsimp only
  by_cases hSame : j = k
  · subst hSame
    rw [State.client?_withClient hClient, hClient, if_pos rfl]
  · rw [State.client?_withClient_of_ne u d (Ne.symm hSame), if_neg hSame]
    cases u.client? j with
    | none => rfl
    | some e => simp [Rpc.Client.taken]

/-- A forwarding of changes that finds a session, and sends while it is up, tells them to it. -/
theorem Carried.tells {own : List Step} {sent : Except Error Bool}
    (h : Carried p id (.watchedFiles events) own (.done sent))
    (hServes : ∀ step ∈ own, step.before.Serves k) :
    sent = .ok true ∧
      ∀ j, own.flatMap (·.sent j) = if j = k then [(changesNotice events).text] else [] := by
  generalize hDelivery : Delivery.done sent = delivery at h
  cases h with
  | waiting | holding => cases hDelivery
  | passed hNot => exact absurd (hServes _ List.mem_cons_self).running hNot
  | @sent s t u v j c d result hRunning hSlot hSame hClient hUp hTell hAfter =>
    obtain rfl := Delivery.done.inj hDelivery
    obtain rfl : j = k := Option.some.inj (hSlot.symm.trans (hServes _ List.mem_cons_self).slot)
    have hServed := hServes ⟨u, .deliver id, v⟩ (by simp)
    obtain ⟨c', hClient', hPhase, -⟩ := hServed.connected
    obtain rfl := Option.some.inj (hClient.symm.trans hClient')
    obtain ⟨hInitialized, hOpen⟩ := hUp hServed.running
    obtain ⟨e, hTold⟩ : ∃ e, u.tell p c (.watchedFiles events) = (e, .ok ()) :=
      tellInitialized_of_up hInitialized hOpen hPhase
    obtain ⟨rfl, rfl⟩ := Prod.mk.inj (hTold.symm.trans hTell)
    obtain ⟨-, hSends⟩ := Lsp.Client.tellInitialized_sends hTold
    refine ⟨rfl, fun i => ?_⟩
    have hTaken : c.rpc.taken e.rpc = [(changesNotice events).text] := hSends.flow.taken_eq
    rw [List.flatMap_cons, List.flatMap_cons, List.flatMap_nil, List.append_nil,
      Step.sent_of_same hSame, Step.sent_withClient hClient hAfter, hTaken, List.nil_append]

/-- While the loop of a session runs, what was told is what was written and what waits. -/
theorem Run.sent_eq (hRun : Run p (.create p) trace s) (hClient : s.client? k = some c)
    (hPhase : c.rpc.phase = .running) :
    trace.flatMap (·.sent k) = writtenOn trace k ++ c.rpc.accepted := by
  obtain ⟨said, hCourse⟩ := hRun.course k
  obtain ⟨rest, hAll, hRest⟩ := hCourse.tally
  rw [hCourse.sent, hAll, hRest c hClient hPhase]
  rfl

/-- The loop of a session whose connection is open writes all that waits, the oldest first. -/
theorem writes_out (hClient : s.client? k = some c) (hPhase : c.rpc.phase = .running)
    (hWritable : c.rpc.connection.writable = true) :
    ∃ more t, Run p s more t ∧ (∀ step ∈ more, step.event = .loop k) ∧
      writtenOn more k = c.rpc.accepted := by
  generalize hWaiting : c.rpc.accepted = waiting
  induction waiting generalizing s c with
  | nil => exact ⟨[], s, .start, by simp, rfl⟩
  | cons m rest ih =>
    have hLoop : c.loopStep? (answer s.settings) = some (c.follow
        { c.rpc with accepted := rest, connection := c.rpc.connection.put m } []) := by
      simp [Lsp.Client.loopStep?, Rpc.Client.loop_writes hPhase hWaiting hWritable]
    obtain ⟨t, hStep, hAfter⟩ := CanLeave.loop_next? (p := p) hClient hLoop
    obtain ⟨more, u, hMore, hLoops, hWritten⟩ := ih hAfter hPhase hWritable rfl
    refine ⟨⟨s, .loop k, t⟩ :: more, u, Run.trans (.step .start hStep) hMore, ?_, ?_⟩
    · intro step hMem
      rcases List.mem_cons.mp hMem with rfl | hLater
      · rfl
      · exact hLoops step hLater
    · have hFirst : (⟨s, .loop k, t⟩ : Step).written k = [m] := by
        rw [Step.written_eq hClient hAfter]
        simp [Rpc.Client.written, hWaiting, Rpc.Client.outbox, Frame.Connection.put,
          Frame.Connection.onto, Stream.Transport.put]
      rw [writtenOn, List.flatMap_cons, hFirst, ← writtenOn, hWritten]
      rfl

/-- What a call does that tells changes of watched files, behind a run. -/
structure TellsChanges (p : Profile) (past : List Step) (s : State) (changes : List (Path × Int)) :
    Prop where
  /-- The filter looks at the files from the root of the latest start. -/
  root : s.watched p changes = changes.filter fun change =>
    p.options.fileEvents.accepts change.1 (latestRoot? past)
  /-- What the filter rejects has no influence. -/
  filtered : s.call p (.watchedFiles changes) = s.call p (.watchedFiles (s.watched p changes))
  refused : ∀ path, unnamed? (s.watched p changes) = some path →
    s.call p (.watchedFiles changes) = .answered (.error (.lsp (.noUri ⟨path⟩)))
  /-- Where all have URIs, one notification tells them, which is read as these changes. -/
  named : unnamed? (s.watched p changes) = none → ∃ events : List (String × Int),
    (s.watched p changes).map (fun change => (Uri.ofPath? change.1, change.2)) =
      events.map (fun e => (some e.1, e.2)) ∧
    ((∀ change ∈ changes, -Int.pow 2 31 ≤ change.2 ∧ change.2 < Int.pow 2 31) →
      Json.IsRecord (changesNotice events).text (changesEntries events)) ∧
    ∀ trace result t k, Served p s (.watchedFiles changes) trace result t →
      (∀ step ∈ trace, step.event = .acquire s.nextForward ∨ step.event = .deliver s.nextForward →
        step.before.Serves k) →
      result = .ok (.count (s.watched p changes).length) ∧
      ∀ j, (trace.filter (·.forwards s.nextForward)).flatMap (·.sent j) =
        if j = k ∧ events ≠ [] then [(changesNotice events).text] else []
  ends : Call.Ends p s (.watchedFiles changes)
  /-- What was told is written in the same order, and all of it can be. -/
  written : ∀ trace result t later u k c, Served p s (.watchedFiles changes) trace result t →
    Run p t later u → u.client? k = some c → c.rpc.phase = .running →
    (past ++ trace ++ later).flatMap (·.sent k) =
      writtenOn (past ++ trace ++ later) k ++ c.rpc.accepted ∧
    (c.rpc.connection.writable = true → ∃ more v, Run p u more v ∧
      (∀ step ∈ more, step.event = .loop k) ∧ writtenOn more k = c.rpc.accepted)

theorem State.call_watched {changes : List (Path × Int)}
    (hAccepted : s.acceptedChanges p changes = .ok events) :
    s.call p (.watchedFiles changes) =
      if events = [] then .answered (.ok (.count 0))
      else .forwarded (s.forward (.watchedFiles events)).1 s.nextForward
        (.count events.length) := by
  rw [State.call, hAccepted]
  cases events <;> rfl

theorem Carried.event_of_own {own : List Step} {delivery : Delivery}
    (h : Carried p id message own delivery) {step : Step} (hMem : step ∈ own) :
    step.event = .acquire id ∨ step.event = .deliver id := by
  cases h with
  | waiting => cases hMem
  | passed | holding => exact .inl (by rw [List.mem_singleton.mp hMem])
  | sent =>
    rcases List.mem_cons.mp hMem with rfl | hLast
    · exact .inl rfl
    · exact .inr (by rw [List.mem_singleton.mp hLast])

/-- The steps of a call tell what those of its forwarding tell. -/
theorem Waits.Account.sent_eq {call : Call} {whenSent : Reply} {own : List Step}
    {delivery : Delivery} {last : Step}
    (h : Account p s call id whenSent trace u message own delivery)
    (hLast : last.after.attempts = last.before.attempts) (j : Nat) :
    ((trace ++ [last]).filter (·.forwards id)).flatMap (·.sent j) = own.flatMap (·.sent j) := by
  obtain ⟨first, hFilter, hFirst⟩ := h.opens
  have hTaken : ([last].filter (·.forwards id)).flatMap (·.sent j) = [] := by
    refine List.flatMap_eq_nil_iff.mpr fun step hMem => ?_
    rw [List.mem_singleton.mp (List.mem_filter.mp hMem).1]
    exact Step.sent_of_same hLast j
  rw [List.filter_append, List.flatMap_append, hTaken, hFilter, List.flatMap_cons,
    Step.sent_of_same hFirst, List.nil_append, List.append_nil]

/-- Changes of files that all have URIs are told to the session that is running. -/
theorem Served.tells {changes : List (Path × Int)} {result : Except Error Reply}
    (hServed : Served p s (.watchedFiles changes) trace result t)
    (hPast : Run p (.create p) past s) (hAccepted : s.acceptedChanges p changes = .ok events)
    (hServes : ∀ step ∈ trace,
      step.event = .acquire s.nextForward ∨ step.event = .deliver s.nextForward →
        step.before.Serves k) :
    result = .ok (.count events.length) ∧
      ∀ j, (trace.filter (·.forwards s.nextForward)).flatMap (·.sent j) =
        if j = k ∧ events ≠ [] then [(changesNotice events).text] else [] := by
  have hCall := State.call_watched hAccepted
  rcases hServed.account hPast with ⟨rfl, rfl, hAnswered⟩ |
    ⟨whenSent, earlier, u, message, own, sent, last, hAccount, rfl, rfl, hLast⟩
  · rw [hCall] at hAnswered
    split at hAnswered
    · cases hAnswered
      simp_all
    · cases hAnswered
  · obtain ⟨t, hTold, hFind⟩ := hAccount.told
    rw [hCall] at hTold
    split at hTold
    · cases hTold
    · rename_i hSome
      cases hTold
      have hFresh := hPast.queued.forward?_fresh (t := (s.forward (.watchedFiles events)).1) rfl
      obtain rfl : .watchedFiles events = message := by
        have hSame := Option.some.inj (hFresh.symm.trans hFind)
        exact congrArg Forward.message hSame
      obtain ⟨rfl, hSent⟩ := hAccount.carried.tells fun step hMem =>
        hServes step (List.mem_append_left _ (hAccount.mem_of_own hMem))
          (hAccount.carried.event_of_own hMem)
      refine ⟨rfl, fun j => ?_⟩
      rw [hAccount.sent_eq hLast, hSent]
      simp [hSome]

/-- In every run, a call that tells changes of watched files does what `TellsChanges` says. -/
theorem watched_files_told (hRun : Run p (.create p) past s) (changes : List (Path × Int)) :
    TellsChanges p past s changes where
  root := by rw [State.watched, hRun.root_eq]
  filtered := by
    have hTwice : s.acceptedChanges p (s.watched p changes) = s.acceptedChanges p changes := by
      simp only [State.acceptedChanges, State.watched, List.filter_filter, Bool.and_self]
    rw [State.call, State.call, hTwice]
  refused path hUnnamed := by
    rcases named_cases (s.watched p changes) with ⟨other, hOther, hError⟩ | ⟨hNone, -⟩
    · have hAccepted : s.acceptedChanges p changes = .error ⟨other⟩ := hError
      obtain rfl := Option.some.inj (hOther.symm.trans hUnnamed)
      rw [State.call, hAccepted]
    · simp [hNone] at hUnnamed
  named hNamed := by
    rcases named_cases (s.watched p changes) with
      ⟨other, hOther, -⟩ | ⟨-, events, hEvents, hUris⟩
    · simp [hOther] at hNamed
    · have hLength : (s.watched p changes).length = events.length := by
        simpa using congrArg List.length hUris
      have hKind : ∀ e ∈ events, ∃ change ∈ changes, change.2 = e.2 := by
        intro e hMem
        have hNamed : (some e.1, e.2) ∈ events.map (fun e => (some e.1, e.2)) :=
          List.mem_map_of_mem hMem
        rw [← hUris] at hNamed
        obtain ⟨change, hChange, hSame⟩ := List.mem_map.mp hNamed
        exact ⟨change, (List.mem_filter.mp hChange).1, congrArg Prod.snd hSame⟩
      refine ⟨events, hUris, fun hKinds => isRecord_changesNotice fun e hMem => ?_,
        fun trace result t k hServed hServes => ?_⟩
      · obtain ⟨change, hChange, hSame⟩ := hKind e hMem
        exact hSame ▸ hKinds change hChange
      · rw [hLength]
        exact hServed.tells hRun hEvents hServes
  ends := hRun.call_ends _
  written trace result t later u k c hServed hLater hClient hPhase :=
    ⟨((hRun.trans hServed.run).trans hLater).sent_eq hClient hPhase,
      writes_out hClient hPhase⟩

/-- A session that has come up. -/
def comesUp : Option (List Step × State) :=
  (State.create watchingProfile).follow? watchingProfile
    [.start (.ofString "/server") (some (.ofString "/a")), .launched 0 (.ok (.fresh, none)),
      .task 0, .loop 0, .connection 0 (answerCall 1 "\x7b\"capabilities\":\x7b\x7d\x7d"), .loop 0,
      .loop 0, .task 0, .task 0, .task 0]

def someChanges : List (Path × Int) :=
  [(.ofString "/a/B.java", 1), (.ofString "notes.txt", 1), (.ofString "/c/D.java", 3)]

theorem comesUp_shown :
    comesUp.map (fun (_, s) => (s.status, s.slot, s.stop.isNone,
      (s.client? 0).map fun c => (c.rpc.phase, c.rpc.connection.writable))) =
        some (.running, some 0, true, some (.running, true)) ∧
    comesUp.map (fun (_, s) => (unnamed? (s.watched watchingProfile someChanges),
      (s.watched watchingProfile someChanges).map fun change =>
        (Uri.ofPath? change.1, change.2))) =
      some (none, [(some "file:///a/B.java", 1), (some "file:///c/D.java", 3)]) := by
  constructor
  · decide +kernel
  · decide +kernel

theorem comesUp_told :
    ∃ past s trace t, comesUp = some (past, s) ∧ s.Serves 0 ∧
      Served watchingProfile s (.watchedFiles someChanges) trace (.ok (.count 2)) t ∧
      (trace.filter (·.forwards s.nextForward)).flatMap (·.sent 0) =
        [(changesNotice [("file:///a/B.java", 1), ("file:///c/D.java", 3)]).text] ∧
      Json.IsRecord (changesNotice [("file:///a/B.java", 1), ("file:///c/D.java", 3)]).text
        (changesEntries [("file:///a/B.java", 1), ("file:///c/D.java", 3)]) := by
  obtain ⟨hUp, hChanges⟩ := comesUp_shown
  obtain ⟨⟨past, s⟩, hEval, hShown⟩ := Option.map_eq_some_iff.mp hUp
  simp only [Prod.mk.injEq] at hShown
  obtain ⟨hRunning, hSlot, hStop, hShown⟩ := hShown
  obtain ⟨c, hClient, hConnected⟩ := Option.map_eq_some_iff.mp hShown
  obtain ⟨hPhase, hWritable⟩ := Prod.mk.inj hConnected
  have hServes : s.Serves 0 := ⟨hRunning, hSlot, c, hClient, hPhase, hWritable⟩
  simp only [hEval, Option.map_some, Option.some.injEq, Prod.mk.injEq] at hChanges
  obtain ⟨hNone, hUris⟩ := hChanges
  have hTells := watched_files_told (State.run_of_follow? hEval) someChanges
  obtain ⟨events, hEvents, hText, hNamed⟩ := hTells.named hNone
  obtain rfl : events = [("file:///a/B.java", 1), ("file:///c/D.java", 3)] := by
    rw [hUris] at hEvents
    exact ((List.map_inj_right (by simp)).mp hEvents.symm)
  have hLength : (s.watched watchingProfile someChanges).length = 2 := by
    simpa using congrArg List.length hUris
  obtain ⟨trace, result, t, hServed, hEach⟩ :=
    hTells.ends.atOnce (Option.isNone_iff_eq_none.mp hStop)
  obtain ⟨hReply, hSent⟩ := hNamed trace result t 0 hServed fun step hMem _ =>
    (hEach step hMem).2 0 hServes
  rw [hReply, hLength] at hServed
  exact ⟨past, s, trace, t, hEval, hServes, hServed, hSent 0, hText (by decide)⟩

end EditorBridge.Session
