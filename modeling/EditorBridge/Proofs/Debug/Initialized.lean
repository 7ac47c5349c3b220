import EditorBridge.Proofs.Adapter.Hearing
import EditorBridge.Proofs.Debug.Awaiting
/-!
When a start comes to hear that its adapter is initialized. An event that tells so and that is
received in time is found exactly if there is room for it in the queue when it is received; a start
that does not come to ask for events while its adapter tells a lot can miss it.
-/
namespace EditorBridge.Debug

open Adapter (Entry Event eventAt taken unread Accounted eventCapacity)

namespace Startup

variable {s d : Startup} {entries trace : List Entry}

/-- What a start shows of its wait for the adapter. -/
structure Attends (s : Startup) (trace : List Entry) : Prop where
  /-- The answer to the opening request leads to the wait, unless the next request is not taken. -/
  opened : ∀ seq r, s.stage = .opening seq → s.client.result? seq = some (.ok r) →
    s.client.takesRequests = true → ∃ d entries, s.next? .goOn = some (d, entries) ∧
      d.stage = .initializing s.client.nextSeq ∧ d.client.events = s.client.events
  /-- An event that arrives while the loop listens is received. -/
  heard : ∀ m e, s.client.Listens → m.utf8ByteSize ≤ Frame.maxSize →
    Adapter.Message.parse m = .ok (.event e) → s.follow? [arrival m, .loop, .loop] =
      some ([.received m s.client.writable], { s with client := s.client.queueEvent e })
  /-- While a start waits, its time is not over if an event that it waits for was received with room
  for it, and it comes to that event by going on, whatever else happens. -/
  waiting : ∀ start, s.stage = .initializing start → ∃ kept,
    Accounted trace s.client.events kept ∧ ∀ n e, eventAt trace n = some e →
      e.event = initializedEvent → unread trace kept n < eventCapacity →
      (∀ limit, s.next? (.expire limit) = none) ∧ (s.next? .goOn).isSome = true ∧
        ∃ i < eventCapacity, ∀ actions entries d, s.follow? actions = some (entries, d) →
          i < actions.countP (· matches .goOn) → Finds entries
  /-- A start that has come further has left the wait once, and it has left it with an event exactly
  if one that it waits for was received before with room for it. -/
  left : (s.stage.waits = false ∧ ∀ e, s.stage ≠ .ended (.error e)) ∨
    (∃ entry ∈ trace, leaves entry = true) → ∃ before exit after events kept,
      Left trace before exit after events kept ∧ ((∃ e, exit = .took e) ↔
        ∃ n e, eventAt before n = some e ∧ e.event = initializedEvent ∧
          unread before kept n < eventCapacity)

theorem next?_client {action : Action} {a : Adapter.Client.Action} {c : Adapter.Client}
    (hNext : s.client.next? a = some (c, entries))
    (hAside : a = .loop ∧ action = .loop ∨ ∃ h, a = .transport h ∧ action = .transport h) :
    s.next? action = some ({ s with client := c }, entries) := by
  have hFollow := Adapter.Client.follow?_single hNext
  rcases hAside with ⟨rfl, rfl⟩ | ⟨happening, rfl, rfl⟩
  · obtain ⟨d, hLoop, hEq⟩ := Option.map_eq_some_iff.mp hNext
    obtain ⟨rfl, -⟩ := Prod.mk.inj hEq
    simp only [next?, move?, hLoop, Option.map_some, hFollow]
  · obtain ⟨rfl, -⟩ := Prod.mk.inj (Option.some.inj hNext)
    simp only [next?, move?, hFollow, Option.map_some]

/-- A frame that arrives is heard as by the client alone. -/
theorem follow?_hearing {m : String} {c : Adapter.Client}
    (h : s.client.follow? (Adapter.Client.hearing m) = some (entries, c)) :
    s.follow? [arrival m, .loop, .loop] = some (entries, { s with client := c }) := by
  obtain ⟨c₁, first, more, hArrives, hBehind, rfl⟩ := follow?_cons_eq_some h
  obtain ⟨c₂, second, last, hReads, hLast, rfl⟩ := follow?_cons_eq_some hBehind
  obtain ⟨c₃, third, none, hActs, hEnd, rfl⟩ := follow?_cons_eq_some hLast
  obtain ⟨rfl, rfl⟩ := Prod.mk.inj (Option.some.inj hEnd)
  have hFirst : s.next? (arrival m) = _ := next?_client hArrives (.inr ⟨_, rfl, rfl⟩)
  have hSecond : ({ s with client := c₁ } : Startup).next? .loop = _ :=
    next?_client hReads (.inl ⟨rfl, rfl⟩)
  have hThird : ({ s with client := c₂ } : Startup).next? .loop = _ :=
    next?_client hActs (.inl ⟨rfl, rfl⟩)
  simp only [follow?, hFirst, hSecond, hThird, Option.map_some, List.append_nil]

theorem next?_of_step? (h : s.step? = some d) : ∃ entries, s.next? .goOn = some (d, entries) := by
  obtain ⟨entries, hFollow, -⟩ := goOn_turn h
  exact ⟨entries, by simp only [next?, move?, h, Option.map_some, hFollow]⟩

/-- With the answer to the opening request, the request for the session is sent. -/
theorem step?_opening {seq : Nat} {r : Adapter.Response} (hStage : s.stage = .opening seq)
    (hResult : s.client.result? seq = some (.ok r)) (hTakes : s.client.takesRequests = true) :
    ∃ d, s.step? = some d ∧ d.stage = .initializing s.client.nextSeq ∧
      d.capabilities = r.body.getD .null ∧ d.client = { s.client with
        answers := s.client.answers.filter (·.seq != seq)
        nextSeq := s.client.nextSeq + 1
        accepted := s.client.accepted ++ [⟨s.client.nextSeq, s.request.command,
          some s.session.configuration.toJson⟩]
        pending := s.client.pending ++ [s.client.nextSeq] } := by
  obtain ⟨⟨c, result⟩, hPoll, hSame⟩ := Option.map_eq_some_iff.mp hResult
  dsimp only at hSame
  subst hSame
  obtain ⟨rfl, -⟩ := Adapter.Client.poll?_some hPoll
  have hStep : s.step? = s.answered? seq fun s r => s.opened (r.body.getD .null) := by
    simp only [step?, hStage]
  have hStill : ({ s.client with
      answers := s.client.answers.filter (·.seq != seq) } : Adapter.Client).takesRequests = true :=
    hTakes
  rw [hStep, answered?, hPoll, Option.map_some]
  simp only [opened, send, Adapter.Client.send_taken hStill]
  exact ⟨_, rfl, rfl, rfl, rfl⟩

/-- While a start waits, an event that it waits for and that was received with room for it is in the
queue, and the start comes to it. -/
theorem Run.awaits {plan : StartPlan} {transport : Stream.Transport} {start n : Nat} {e : Event}
    {kept : List Nat} (hRun : Run (create plan transport) trace s)
    (hStage : s.stage = .initializing start)
    (hAccount : Accounted (plan.opening ++ trace) s.client.events kept)
    (hEvent : eventAt (plan.opening ++ trace) n = some e) (hReady : e.event = initializedEvent)
    (hRoom : unread (plan.opening ++ trace) kept n < eventCapacity) :
    (∀ limit, s.next? (.expire limit) = none) ∧ (s.next? .goOn).isSome = true ∧
      ∃ i < eventCapacity, ∀ actions entries d, s.follow? actions = some (entries, d) →
        i < actions.countP (· matches .goOn) → Finds entries := by
  have hWaits : ∀ entry ∈ plan.opening ++ trace, leaves entry = false := by
    cases hRun.progress with
    | waiting _ hNone => exact hNone
    | failed hEnded => simp [hStage] at hEnded
    | left hOver => simp [hStage, Stage.waits] at hOver
  have hMem : e ∈ s.client.events := by
    rcases List.mem_append.mp (hAccount.mem_iff.mpr ⟨n, hEvent, hRoom⟩) with hTaken | hWaiting
    · exact absurd hReady (ne_of_taken hWaits hTaken)
    · exact hWaiting
  obtain ⟨i, hLt, hPlace⟩ := List.getElem_of_mem hMem
  have hFound : s.client.events[i]? = some e := List.getElem?_eq_some_iff.mpr ⟨hLt, hPlace⟩
  obtain ⟨first, rest, hEvents⟩ := List.exists_cons_of_ne_nil (List.ne_nil_of_mem hMem)
  refine ⟨next?_expire hStage hEvents, ?_, i, Nat.lt_of_lt_of_le hLt hAccount.bounded,
    fun actions entries d hFollow hOften => follow?_finds hStage hFound hReady hFollow hOften⟩
  obtain ⟨d, hStep⟩ : ∃ d, s.step? = some d := by
    rw [step?_initializing hStage, takeEvent?_cons hEvents]
    split <;> exact ⟨_, rfl⟩
  obtain ⟨entries, hNext⟩ := next?_of_step? hStep
  rw [hNext]
  rfl

end Startup

/-- In every run of a start, whatever the adapter sends and when: the wait for the adapter is left
with an event that tells that it is initialized, exactly if one is received in time while fewer than
`eventCapacity` events wait. -/
theorem initialized_found_iff {plan : StartPlan} {transport : Stream.Transport}
    {trace : List Entry} {s : Startup} (hRun : Startup.Run (.create plan transport) trace s) :
    s.Attends (plan.opening ++ trace) where
  opened seq r hStage hResult hTakes := by
    obtain ⟨d, hStep, hStarted, -, hClient⟩ := Startup.step?_opening hStage hResult hTakes
    obtain ⟨entries, hNext⟩ := Startup.next?_of_step? hStep
    exact ⟨d, entries, hNext, hStarted, by rw [hClient]⟩
  heard m e hListens hSize hParse := Startup.follow?_hearing (hListens.hears_event hSize hParse).1
  waiting start hStage := by
    obtain ⟨kept, hAccount⟩ := hRun.ofClient.accounted
    exact ⟨kept, hAccount, fun n e => hRun.awaits hStage hAccount⟩
  left hAway := by
    cases hRun.progress with
    | left hOver hLeft => exact ⟨_, _, _, _, _, hLeft, hLeft.took_iff⟩
    | waiting hWaits hNone =>
      rcases hAway with ⟨hOver, -⟩ | ⟨entry, hMem, hLeaves⟩
      · simp [hWaits] at hOver
      · simp [hNone entry hMem] at hLeaves
    | failed hEnded hNone =>
      rcases hAway with ⟨-, hOk⟩ | ⟨entry, hMem, hLeaves⟩
      · exact absurd hEnded (hOk _)
      · simp [hNone entry hMem] at hLeaves

namespace Startup

variable {s : Startup} {m : String}

/-- Events arrive, and nobody asks for them. -/
theorem run_hears {e : Event} (hSize : m.utf8ByteSize ≤ Frame.maxSize)
    (hParse : Adapter.Message.parse m = .ok (.event e)) (k : Nat) (hListens : s.client.Listens)
    (hRoom : s.client.events.length + k ≤ eventCapacity) :
    Run s (List.replicate k (.received m s.client.writable))
      (s.withEvents (s.client.events ++ List.replicate k e)) := by
  induction k generalizing s with
  | zero =>
    rw [List.replicate_zero, List.replicate_zero, List.append_nil]
    exact .start
  | succ k ih =>
    obtain ⟨hHears, hStill⟩ := hListens.hears_event hSize hParse
    have hQueue : s.client.queueEvent e = { s.client with events := s.client.events ++ [e] } :=
      if_pos (by omega)
    rw [hQueue] at hHears hStill
    have hFirst : Run s [.received m s.client.writable] (s.withEvents (s.client.events ++ [e])) :=
      run_of_follow? (follow?_hearing hHears)
    have hRest := ih (s := s.withEvents (s.client.events ++ [e])) hStill (by
      have hLength : (s.withEvents (s.client.events ++ [e])).client.events.length =
          s.client.events.length + 1 := List.length_append
      omega)
    have hEvents : s.client.events ++ List.replicate (k + 1) e =
        s.client.events ++ [e] ++ List.replicate k e := by
      simp [List.replicate_succ]
    rw [List.replicate_succ, hEvents]
    exact hFirst.trans hRest

/-- The answer to the opening request arrives, and the request for the session is written. -/
theorem run_opens {seq : Nat} {r : Adapter.Response} (hStage : s.stage = .opening seq)
    (hListens : s.client.Listens) (hWritable : s.client.writable = true)
    (hPending : s.client.pending = [seq]) (hAnswers : s.client.answers = [])
    (hSize : m.utf8ByteSize ≤ Frame.maxSize)
    (hParse : Adapter.Message.parse m = .ok (.response r)) (hNames : r.requestSeq = seq)
    (hSuccess : r.success = true) : ∃ entries d, Run s (.received m true :: entries) d ∧
      d.stage = .initializing s.client.nextSeq ∧ d.client.Listens ∧
      d.client.events = s.client.events ∧ d.capabilities = r.body.getD .null := by
  obtain ⟨said, hHandled, hHears⟩ := hListens.hears hSize
  have hSilent : said = [] := by
    rw [← hHandled.wrote]
    simp [Adapter.Client.reply?, hParse, Adapter.Client.wrote]
  have hResolve : s.client.handle m = { s.client with pending := [], answers := [⟨seq, r⟩] } := by
    have hSeq : r.requestSeq.toNat? = some seq := by rw [hNames]; rfl
    simp only [Adapter.Client.handle, hParse, Adapter.Client.resolve, hSeq, hPending, hAnswers]
    simp
  rw [hSilent, hResolve, hWritable] at hHears
  generalize hAnswered : ({ s.client with pending := [], answers := [⟨seq, r⟩] } : Adapter.Client) =
    c at hHears
  have hResult : c.result? seq = some (.ok r) := by
    simp [← hAnswered, Adapter.Client.result?_eq, Adapter.Client.judge, hSuccess]
  have hTakes : c.takesRequests = true := by
    simp [← hAnswered, Adapter.Client.takesRequests, hListens.isOpen, hListens.running]
  obtain ⟨d, hStep, hStarted, hCapabilities, hClient⟩ :=
    step?_opening (s := { s with client := c }) hStage hResult hTakes
  obtain ⟨entries, hGoesOn⟩ := next?_of_step? hStep
  have hWaits : ({ d.client with accepted := [] } : Adapter.Client).Listens := by
    rw [hClient, ← hAnswered]
    exact ⟨hListens.running, rfl, hListens.isOpen, hListens.connection, hListens.dry⟩
  have hWaiting : d.client.accepted = [⟨s.client.nextSeq, s.request.command,
      some s.session.configuration.toJson⟩] := by
    rw [hClient, ← hAnswered]
    simp [hListens.accepted]
  have hStill : d.client.writable = true := by
    rw [hClient, ← hAnswered]
    exact hWritable
  obtain ⟨connection, hWrites, hAfter, -⟩ := hWaits.writes hWaiting hStill
  have hRun := (run_of_follow? (follow?_hearing hHears)).trans
    ((Run.single hGoesOn).trans (Run.single (next?_client hWrites (.inl ⟨rfl, rfl⟩))))
  refine ⟨_, _, hRun, ?_, hAfter, ?_, hCapabilities⟩
  · rw [hStarted, ← hAnswered]
  · rw [hClient, ← hAnswered]

/-- All events that wait are passed over. -/
theorem run_passes {start : Nat} (hStage : s.stage = .initializing start)
    (hOther : ∀ e ∈ s.client.events, e.event ≠ initializedEvent) :
    Run s (s.client.events.map .took) (s.withEvents []) := by
  generalize hEvents : s.client.events = events at hOther
  induction events generalizing s with
  | nil =>
    have hSame : s.withEvents [] = s := by rw [← hEvents]; rfl
    rw [hSame]
    exact .start
  | cons e rest ih =>
    obtain ⟨hFirst, hRest⟩ := List.forall_mem_cons.mp hOther
    have hStep := next?_passes hStage hEvents hFirst
    exact (Run.single hStep).trans (ih (s := s.withEvents rest) hStage rfl hRest)

/-- The time of a start is over when nothing waits, and its adapter does not want to be told. -/
theorem next?_gives_up {start : Nat} (hStage : s.stage = .initializing start)
    (hEvents : s.client.events = []) (hRunning : s.client.phase ≠ .ended)
    (hUntold : wantsConfigurationDone s.capabilities = false) (limit : Duration) :
    s.next? (.expire limit) = some ({ s with stage := .starting start }, [.noEvent]) := by
  have hNone : s.step? = none := by
    rw [step?_initializing hStage, takeEvent?, Adapter.Client.takeEvent?, hEvents]
    simp [Adapter.Client.eventsOver, hRunning]
  have hActions : s.configureActions = [] := by simp [configureActions, hUntold]
  have hConfigure : s.configure start = { s with stage := .starting start } := by
    simp [configure, hUntold]
  simp only [next?, move?, hNone, result?, hStage, expire, expireActions, hActions, hConfigure,
    Adapter.Client.follow?_single (next?_missEvent hEvents), Option.map_some]

end Startup

/-- A plan for a Java program. -/
def javaPlan : StartPlan :=
  ⟨.ofConfiguration (.ofMembers [("type", .string "java")]), .launch, .server default⟩

def outputText : String := "\x7b\"seq\":1,\"type\":\"event\",\"event\":\"output\"\x7d"

def openedText : String :=
  "\x7b\"seq\":2,\"type\":\"response\",\"request_seq\":1,\"success\":true," ++
    "\"command\":\"initialize\"\x7d"

def initializedText : String := "\x7b\"seq\":3,\"type\":\"event\",\"event\":\"initialized\"\x7d"

/-- The texts are read as two events and a response without a body. -/
theorem texts_shown :
    (Entry.received outputText true).event?.map Event.event = some "output" ∧
    (Adapter.answer? 1 openedText).map (fun r => (r.success, r.body.isNone)) = some (true, true) ∧
    (Entry.received initializedText true).event?.map Event.event = some initializedEvent := by
  decide +kernel

theorem texts_fit : outputText.utf8ByteSize ≤ Frame.maxSize ∧
    openedText.utf8ByteSize ≤ Frame.maxSize ∧ initializedText.utf8ByteSize ≤ Frame.maxSize := by
  decide

theorem parse_of_event? {m : String} {name : String}
    (h : (Entry.received m true).event?.map Event.event = some name) :
    ∃ e, Adapter.Message.parse m = .ok (.event e) ∧ e.event = name := by
  obtain ⟨e, hEvent, hName⟩ := Option.map_eq_some_iff.mp h
  simp only [Entry.event?] at hEvent
  split at hEvent
  · rename_i hParse
    cases hEvent
    exact ⟨e, hParse, hName⟩
  · cases hEvent

theorem parse_of_answer? {m : String} {seq : Int} {r : Adapter.Response}
    (h : Adapter.answer? seq m = some r) :
    Adapter.Message.parse m = .ok (.response r) ∧ r.requestSeq = seq := by
  unfold Adapter.answer? at h
  split at h
  · rename_i hParse
    split at h
    · cases h
      exact ⟨hParse, by assumption⟩
    · cases h
  · cases h

/-- The opening request is written. -/
theorem exists_greeted : ∃ trace s, Startup.Run (.create javaPlan .fresh) trace s ∧
    s.stage = .opening 1 ∧ s.client.Listens ∧ s.client.writable = true ∧
    s.client.pending = [1] ∧ s.client.answers = [] ∧ s.client.events = [] ∧
    s.client.nextSeq = 2 := by
  have hFresh : ({ (Startup.create javaPlan .fresh).client with
      accepted := [] } : Adapter.Client).Listens := ⟨rfl, rfl, rfl, ⟨rfl, rfl⟩, rfl⟩
  obtain ⟨connection, hWrites, hListens, hWritable⟩ := hFresh.writes rfl rfl
  exact ⟨_, _, .single (Startup.next?_client hWrites (.inl ⟨rfl, rfl⟩)), rfl, hListens, hWritable,
    rfl, rfl, rfl, rfl⟩

/-- `k` events arrive before the answer to the opening request. -/
theorem exists_flooded {k : Nat} (hRoom : k ≤ eventCapacity) : ∃ trace s e,
    Startup.Run (.create javaPlan .fresh) trace s ∧ s.stage = .initializing 2 ∧
      s.client.Listens ∧ s.client.events = List.replicate k e ∧ e.event = "output" ∧
      s.capabilities = .null ∧ .received openedText true ∈ trace := by
  obtain ⟨hOutput, hOpened, -⟩ := texts_fit
  obtain ⟨e, hParse, hName⟩ := parse_of_event? texts_shown.1
  obtain ⟨r, hAnswer, hShown⟩ := Option.map_eq_some_iff.mp texts_shown.2.1
  simp only [Prod.mk.injEq, Option.isNone_iff_eq_none] at hShown
  obtain ⟨hResponse, hNames⟩ := parse_of_answer? hAnswer
  obtain ⟨trace, s, hGreets, hStage, hListens, hWritable, hPending, hAnswers, hEvents, hNext⟩ :=
    exists_greeted
  have hFlood := Startup.run_hears hOutput hParse k hListens (by simpa [hEvents] using hRoom)
  have hStill : (s.withEvents (s.client.events ++ List.replicate k e)).client.Listens :=
    ⟨hListens.running, hListens.accepted, hListens.isOpen, hListens.connection, hListens.dry⟩
  obtain ⟨entries, d, hOpens, hWaits, hAfter, hQueue, hCapabilities⟩ :=
    Startup.run_opens (s := s.withEvents (s.client.events ++ List.replicate k e)) hStage hStill
      hWritable hPending hAnswers hOpened hResponse hNames hShown.1
  refine ⟨_, d, e, (hGreets.trans hFlood).trans hOpens, ?_, hAfter, ?_, hName, ?_, ?_⟩
  · rw [hWaits]
    exact congrArg Stage.initializing hNext
  · rw [hQueue]
    simp [Startup.withEvents, hEvents]
  · rw [hCapabilities, hShown.2]
    rfl
  · simp

/-- An event that tells that the adapter is initialized waits behind another one, and is come to. -/
theorem queuedBehindOutput_found : ∃ trace s,
    Startup.Run (.create javaPlan .fresh) trace s ∧ s.stage = .initializing 2 ∧
      (∀ limit, s.next? (.expire limit) = none) ∧ ∃ i < eventCapacity,
        ∀ actions entries d, s.follow? actions = some (entries, d) →
          i < actions.countP (· matches .goOn) → Startup.Finds entries := by
  obtain ⟨e, hParse, hReady⟩ := parse_of_event? texts_shown.2.2
  obtain ⟨trace, s, o, hFlood, hStage, hListens, hEvents, -⟩ :=
    exists_flooded (k := 1) (by decide)
  have hHears := Startup.run_hears texts_fit.2.2 hParse 1 hListens (by simp [hEvents, eventCapacity])
  have hRun := hFlood.trans hHears
  obtain ⟨kept, hAccount, hFound⟩ := (initialized_found_iff hRun).waiting 2 hStage
  have hMem : e ∈ taken (javaPlan.opening ++ (trace ++ List.replicate 1
      (.received initializedText s.client.writable))) ++ (s.withEvents
        (s.client.events ++ List.replicate 1 e)).client.events := by
    simp [Startup.withEvents]
  obtain ⟨n, hEvent, hRoom⟩ := hAccount.mem_iff.mp hMem
  obtain ⟨hExpire, -, hComes⟩ := hFound n e hEvent hReady hRoom
  exact ⟨_, _, hRun, hStage, hExpire, hComes⟩

/-- An adapter tells as much as the queue holds, answers the opening request and then tells that it is
initialized, and the start does not come to ask for events before. -/
theorem exists_flooded_run : ∃ trace s before,
    Startup.Run (.create javaPlan .fresh) trace s ∧ s.stage = .starting 2 ∧
      javaPlan.opening ++ trace = before ++ [.noEvent] ∧
      (∃ text r, .received text true ∈ before ∧ Adapter.answer? 1 text = some r ∧
        r.success = true) ∧
      ∃ n e, eventAt before n = some e ∧ e.event = initializedEvent := by
  obtain ⟨e, hParse, hReady⟩ := parse_of_event? texts_shown.2.2
  obtain ⟨r, hAnswer, hShown⟩ := Option.map_eq_some_iff.mp texts_shown.2.1
  obtain ⟨trace, s, o, hFlood, hStage, hListens, hEvents, hName, hCapabilities, hOpened⟩ :=
    exists_flooded (Nat.le_refl eventCapacity)
  -- The queue is full, so the event is dropped.
  have hDropped : s.client.queueEvent e = s.client := by
    refine if_neg ?_
    rw [hEvents, List.length_replicate]
    exact Nat.lt_irrefl _
  have hHears := (hListens.hears_event texts_fit.2.2 hParse).1
  rw [hDropped] at hHears
  have hArrived := hFlood.trans (Startup.run_of_follow? (Startup.follow?_hearing hHears))
  have hOther : ∀ e ∈ s.client.events, e.event ≠ initializedEvent := by
    intro e' hMem
    rw [hEvents] at hMem
    rw [List.eq_of_mem_replicate hMem, hName]
    decide
  have hPassed := hArrived.trans (Startup.run_passes hStage hOther)
  have hRunning : (s.withEvents []).client.phase ≠ .ended := by
    have hPhase : (s.withEvents []).client.phase = .running := hListens.running
    rw [hPhase]
    nofun
  have hLeft := hPassed.trans (.single (Startup.next?_gives_up (s := s.withEvents []) hStage rfl
    hRunning (by rw [Startup.withEvents, hCapabilities]; rfl) (.ofSecs 1)))
  refine ⟨_, _, javaPlan.opening ++ (trace ++ [.received initializedText s.client.writable] ++
    s.client.events.map .took), hLeft, rfl, by simp, ⟨openedText, r, ?_, hAnswer, ?_⟩,
    (javaPlan.opening ++ trace).length, e, ?_, hReady⟩
  · simp [hOpened]
  · exact congrArg Prod.fst hShown
  · have hPlace : eventAt (javaPlan.opening ++ trace ++
        [.received initializedText s.client.writable]) (javaPlan.opening ++ trace).length = some e := by
      rw [Adapter.eventAt_length]
      simp only [Entry.event?, hParse]
    rw [← List.append_assoc, ← List.append_assoc, Adapter.eventAt_append (by simp)]
    exact hPlace

/-- The wait for the adapter can be left without an event although the adapter has answered the
opening request with success and then told in time that it is initialized. -/
theorem initialized_overlooked :
    ¬ ∀ plan transport trace s before after text r n e,
      Startup.Run (.create plan transport) trace s →
      plan.opening ++ trace = before ++ .noEvent :: after → .received text true ∈ before →
      Adapter.answer? 1 text = some r → r.success = true → eventAt before n = some e →
      e.event ≠ initializedEvent := by
  intro hAlways
  obtain ⟨trace, s, before, hRun, -, hTrace, ⟨text, r, hMem, hAnswer, hSuccess⟩, n, e, hEvent,
    hReady⟩ := exists_flooded_run
  exact hAlways _ _ _ _ _ _ _ _ _ _ hRun hTrace hMem hAnswer hSuccess hEvent hReady

end EditorBridge.Debug
