import EditorBridge.Proofs.Adapter.Correlation
/-!
What a wait for an answer should come to, and when it does. It should give the first answer to its
request that was read off the connection, also one that the loop has not acted on; without one it
should end with `closed` when the connection has ended, unless its time was over before. Waits come
to that, and the table of open requests holds those that are still owed something, exactly if three
things never happen to an open request: that the loop leaves the connection with its answer unheard,
that the loop is stopped from outside, and that it is sent behind the end, while the loop still
holds its end of the queue.
-/
namespace EditorBridge.Adapter

namespace Entry

/-- Does the connection end here? -/
def isEnd : Entry → Bool
  | .ended | .cutOff _ => true
  | _ => false

/-- Does the loop act on a message, or leave? -/
def attends : Entry → Bool
  | .received _ _ | .left _ => true
  | _ => false

/-- Does the loop attend to nothing from here on? -/
def departs : Entry → Bool
  | .left _ | .ended | .cutOff _ => true
  | _ => false

theorem departs_of_isEnd {e : Entry} (h : e.isEnd = true) : e.departs = true := by
  cases e with
  | ended | cutOff => rfl
  | _ => cases h

end Entry

/-- The loop leaves once, with no message behind that, and the connection ends once. -/
def Ordered (trace : List Entry) : Prop :=
  trace.Pairwise fun first later =>
    (first.departs = true → later.attends = false) ∧ (first.isEnd = true → later.isEnd = false)

/-- What a request should come to by an entry, if nothing has decided it before. A message that is
left unheard counts like one that the loop acts on, and a connection that is cut off like one that
ends. -/
def promise (seq : Int) : Entry → Option (Except CallError Response)
  | .left unheard => (unheard.findSome? (answer? seq)).map Client.judge
  | .cutOff unheard =>
    some (((unheard.findSome? (answer? seq)).map Client.judge).getD (.error .closed))
  | entry => decision seq entry

/-- What a trace tells ahead of the sending of a request. -/
def ahead (seq : Int) (trace : List Entry) : List Entry := trace.takeWhile (!sends seq ·)

/-- What a request should come to. -/
def promised (seq : Int) (trace : List Entry) : Option (Except CallError Response) :=
  if (ahead seq trace).any Entry.isEnd then some (.error .closed)
  else (since seq trace).findSome? (promise seq)

/-- The requests that were sent and that still should come to something. -/
def owed (trace : List Entry) : List Request :=
  (sentRequests trace).filter fun r => (promised r.seq trace).isNone

/-- What keeps a request from coming to what it should. -/
inductive Slips (seq : Int) (trace : List Entry) : Prop where
  /-- The loop leaves, and the answer is among the messages that nobody has acted on. -/
  | unheard {earlier later : List Entry} {unheard : List String}
      (hTrace : trace = earlier ++ .left unheard :: later) (hSent : wasSent seq earlier = true)
      (hOpen : verdict seq earlier = none)
      (hAnswer : (unheard.findSome? (answer? seq)).isSome = true)
  /-- The loop is stopped, and nobody tells those who wait. -/
  | cutOff {earlier later : List Entry} {unheard : List String}
      (hTrace : trace = earlier ++ .cutOff unheard :: later) (hSent : wasSent seq earlier = true)
      (hOpen : verdict seq earlier = none)
  /-- The request is taken when those who wait have been told. -/
  | belated (hLate : (ahead seq trace).any Entry.isEnd = true)

/-- Is a caller about to take its number out of the table? -/
def Caller.isBusy : Caller → Bool
  | .withdrawing | .late _ _ => true
  | _ => false

section Trace

variable {seq : Int} {trace entries first later : List Entry} {entry : Entry}
  {result : Except CallError Response}

theorem Ordered.append (h : Ordered trace) (hNew : Ordered entries)
    (hAttends : ∀ e ∈ entries, e.attends = true → ∀ e' ∈ trace, e'.departs = false)
    (hEnds : ∀ e ∈ entries, e.isEnd = true → ∀ e' ∈ trace, e'.isEnd = false) :
    Ordered (trace ++ entries) := by
  refine List.pairwise_append.mpr ⟨h, hNew, fun e hOld e' hNow => ⟨fun hDeparts => ?_, fun hEnd => ?_⟩⟩
  · cases hAttends' : e'.attends with
    | false => rfl
    | true => simp [hAttends e' hNow hAttends' e hOld] at hDeparts
  · cases hEnd' : e'.isEnd with
    | false => rfl
    | true => simp [hEnds e' hNow hEnd' e hOld] at hEnd

/-- What decides a request is also what it should come to. -/
theorem promise_of_decision (h : decision seq entry = some result) :
    promise seq entry = some result := by
  cases entry with
  | left | cutOff => cases h
  | _ => exact h

theorem judge_ne (r : Response) : Client.judge r ≠ .error .closed ∧
    ∀ command limit, Client.judge r ≠ .error (.timeout command limit) := by
  unfold Client.judge
  split <;> simp

/-- Where a request should come to something and nothing decides it, the loop departs. -/
theorem departs_of_promise (hDecision : decision seq entry = none)
    (hPromise : promise seq entry = some result) : entry.departs = true ∧
      (result = .error .closed → entry.isEnd = true) ∧
      ∀ command limit, result ≠ .error (.timeout command limit) := by
  cases entry with
  | left unheard =>
    obtain ⟨r, -, rfl⟩ := Option.map_eq_some_iff.mp hPromise
    exact ⟨rfl, fun hClosed => absurd hClosed (judge_ne r).1, (judge_ne r).2⟩
  | cutOff unheard =>
    refine ⟨rfl, fun _ => rfl, fun command limit hLate => ?_⟩
    cases hAnswer : unheard.findSome? (answer? seq) with
    | none =>
      have hClosed : .error .closed = result := by simpa [promise, hAnswer] using hPromise
      cases hClosed.trans hLate
    | some r =>
      obtain rfl : Client.judge r = result := by simpa [promise, hAnswer] using hPromise
      exact (judge_ne r).2 command limit hLate
  | _ => cases hDecision.symm.trans hPromise

/-- What decides a request behind that is the end, or its time is over. -/
theorem decision_behind (h : Ordered (entry :: later)) (hDeparts : entry.departs = true)
    (hLater : later.findSome? (decision seq) = some result) :
    (result = .error .closed ∧ entry.isEnd = false) ∨
      ∃ command limit, result = .error (.timeout command limit) := by
  obtain ⟨e, hMem, hDecision⟩ := List.exists_of_findSome?_eq_some hLater
  obtain ⟨hAttends, hEnds⟩ := (List.pairwise_cons.mp h).1 e hMem
  cases e with
  | received text writable => cases hAttends hDeparts
  | ended =>
    refine .inl ⟨(Option.some.inj hDecision).symm, Bool.eq_false_iff.mpr fun hEnd => ?_⟩
    cases hEnds hEnd
  | expired number command limit =>
    simp only [decision] at hDecision
    split at hDecision
    · exact .inr ⟨command, limit, (Option.some.inj hDecision).symm⟩
    · cases hDecision
  | _ => cases hDecision

/-- A request comes to what it should exactly if nothing that it should come to is missed. -/
theorem findSome?_decision_iff (h : Ordered trace) :
    trace.findSome? (decision seq) = trace.findSome? (promise seq) ↔
      ∀ first entry later, trace = first ++ entry :: later →
        first.findSome? (decision seq) = none → decision seq entry = none →
          promise seq entry = none := by
  induction trace with
  | nil => simp
  | cons entry later ih =>
    cases hDecision : decision seq entry with
    | some result =>
      simp only [List.findSome?_cons, hDecision, promise_of_decision hDecision, true_iff]
      rintro (_ | ⟨e, first⟩) e' later' hTrace hNone hOpen
      · obtain ⟨rfl, rfl⟩ := List.cons.inj hTrace
        rw [hDecision] at hOpen
        cases hOpen
      · obtain ⟨rfl, -⟩ := List.cons.inj hTrace
        simp [hDecision] at hNone
    | none =>
      cases hPromise : promise seq entry with
      | none =>
        simp only [List.findSome?_cons, hDecision, hPromise, ih (List.pairwise_cons.mp h).2]
        constructor
        · rintro hAll (_ | ⟨e, first⟩) e' later' hTrace hNone hOpen
          · obtain ⟨rfl, rfl⟩ := List.cons.inj hTrace
            exact hPromise
          · obtain ⟨rfl, hRest⟩ := List.cons.inj hTrace
            exact hAll first e' later' hRest (by simpa [hDecision] using hNone) hOpen
        · intro hAll first e' later' hTrace hNone hOpen
          exact hAll (entry :: first) e' later' (by simp [hTrace]) (by simp [hDecision, hNone]) hOpen
      | some result =>
        simp only [List.findSome?_cons, hDecision, hPromise]
        obtain ⟨hDeparts, hEnd, hTime⟩ := departs_of_promise hDecision hPromise
        constructor
        · intro hSame
          rcases decision_behind h hDeparts hSame with ⟨hClosed, hGoesOn⟩ | ⟨command, limit, hLate⟩
          · rw [hEnd hClosed] at hGoesOn
            cases hGoesOn
          · exact absurd hLate (hTime command limit)
        · intro hAll
          have hNone := hAll [] entry later rfl rfl hDecision
          rw [hPromise] at hNone
          cases hNone

/-- A trace falls apart where a request is sent. -/
theorem exists_sent (h : wasSent seq trace = true) :
    ∃ r : Request, r.seq = seq ∧ trace = ahead seq trace ++ .sent r :: since seq trace := by
  induction trace with
  | nil => cases h
  | cons e rest ih =>
    cases hFirst : sends seq e with
    | true =>
      cases e with
      | sent r => exact ⟨r, by simpa [sends] using hFirst, by simp [ahead, since, hFirst]⟩
      | _ => cases hFirst
    | false =>
      obtain ⟨r, hSeq, hRest⟩ := ih (by simpa [wasSent, hFirst] using h)
      refine ⟨r, hSeq, ?_⟩
      simpa [ahead, since, List.takeWhile_cons, List.dropWhile_cons, hFirst] using hRest

theorem wasSent_ahead : wasSent seq (ahead seq trace) = false := by
  refine List.any_eq_false.mpr fun e hMem => ?_
  simpa using List.all_eq_true.mp List.all_takeWhile e hMem

theorem since_sent_append {r : Request} (hSeq : r.seq = seq) (h : wasSent seq first = false) :
    since seq (first ++ .sent r :: later) = later := by
  rw [since_of_unsent h]
  simp [since, sends, hSeq]

/-- A request that was sent behind the end is not told that the connection has ended. -/
theorem verdict_ne_closed (h : Ordered trace) (hSent : wasSent seq trace = true)
    (hLate : (ahead seq trace).any Entry.isEnd = true) :
    verdict seq trace ≠ some (.error .closed) := by
  intro hClosed
  obtain ⟨r, -, hTrace⟩ := exists_sent hSent
  obtain ⟨e, hMem, hEnd⟩ := List.any_eq_true.mp hLate
  obtain ⟨e', hSince, hDecision⟩ := List.exists_of_findSome?_eq_some hClosed
  rw [hTrace] at h
  obtain ⟨-, -, hOrder⟩ := List.pairwise_append.mp h
  have hOnce := (hOrder e hMem e' (List.mem_cons_of_mem _ hSince)).2 hEnd
  cases e' with
  | received text writable =>
    obtain ⟨r, -, hJudge⟩ := Option.map_eq_some_iff.mp hDecision
    exact (judge_ne r).1 hJudge
  | ended => cases hOnce
  | expired number command limit =>
    simp only [decision] at hDecision
    split at hDecision <;> cases hDecision
  | _ => cases hDecision

/-- What is missed since a request was sent is what it slips by. -/
theorem slips_of_promise (hSent : wasSent seq trace = true)
    (hTrace : since seq trace = first ++ entry :: later)
    (hOpen : first.findSome? (decision seq) = none) (hMissed : decision seq entry = none)
    (hPromise : promise seq entry = some result) : Slips seq trace := by
  obtain ⟨r, hSeq, hSplit⟩ := exists_sent hSent
  have hWhole : trace = (ahead seq trace ++ .sent r :: first) ++ entry :: later := by
    rw [hTrace] at hSplit
    simpa using hSplit
  have hFirst : wasSent seq (ahead seq trace ++ .sent r :: first) = true := by
    simp [wasSent, sends, hSeq]
  have hVerdict : verdict seq (ahead seq trace ++ .sent r :: first) = none := by
    rw [verdict, since_sent_append hSeq wasSent_ahead, hOpen]
  cases entry with
  | left unheard =>
    have hAnswer : (unheard.findSome? (answer? seq)).isSome = true := by
      obtain ⟨r, hSome, -⟩ := Option.map_eq_some_iff.mp hPromise
      simp [hSome]
    exact .unheard hWhole hFirst hVerdict hAnswer
  | cutOff unheard => exact .cutOff hWhole hFirst hVerdict
  | _ => cases hMissed.symm.trans hPromise

/-- Where the loop leaves or is stopped with a request open, the request misses something. -/
theorem missed (hTrace : trace = first ++ entry :: later) (hSent : wasSent seq first = true)
    (hOpen : verdict seq first = none) (hMissed : decision seq entry = none)
    (hPromise : (promise seq entry).isSome = true) :
    ¬ ∀ first entry later, since seq trace = first ++ entry :: later →
      first.findSome? (decision seq) = none → decision seq entry = none →
        promise seq entry = none := by
  intro hAll
  have hSince : since seq trace = since seq first ++ entry :: later := by
    rw [hTrace, since_append hSent]
  simp [hAll _ entry later hSince hOpen hMissed] at hPromise

/-- A request comes to what it should exactly if it does not slip. -/
theorem verdict_eq_promised_iff (h : Ordered trace) (hSent : wasSent seq trace = true) :
    verdict seq trace = promised seq trace ↔ ¬ Slips seq trace := by
  cases hLate : (ahead seq trace).any Entry.isEnd with
  | true =>
    rw [promised, if_pos hLate]
    exact iff_of_false (verdict_ne_closed h hSent hLate) (not_not_intro (.belated hLate))
  | false =>
    have hSince : Ordered (since seq trace) :=
      h.sublist ((List.tail_sublist _).trans (List.dropWhile_sublist _))
    have hPromised : promised seq trace = (since seq trace).findSome? (promise seq) := by
      rw [promised, hLate]
      rfl
    rw [hPromised, verdict, findSome?_decision_iff hSince]
    constructor
    · intro hAll hSlips
      cases hSlips with
      | unheard hTrace hSent hOpen hAnswer =>
        exact missed hTrace hSent hOpen rfl (by simpa [promise] using hAnswer) hAll
      | cutOff hTrace hSent hOpen => exact missed hTrace hSent hOpen rfl rfl hAll
      | belated hBehind =>
        rw [hLate] at hBehind
        cases hBehind
    · intro hSound first entry later hTrace hOpen hMissed
      cases hPromise : promise seq entry with
      | none => rfl
      | some result => exact absurd (slips_of_promise hSent hTrace hOpen hMissed hPromise) hSound

theorem not_slips_of_staying (h : ∀ e ∈ trace, e.departs = false) : ¬ Slips seq trace := by
  intro hSlips
  cases hSlips with
  | unheard hTrace | cutOff hTrace => cases h _ (hTrace ▸ List.mem_append_right _ List.mem_cons_self)
  | belated hLate =>
    obtain ⟨e, hMem, hEnd⟩ := List.any_eq_true.mp hLate
    cases (h e ((List.takeWhile_sublist _).subset hMem)).symm.trans (Entry.departs_of_isEnd hEnd)

/-- Behind the end every request should have come to something. -/
theorem promised_of_end (hEnd : trace.any Entry.isEnd = true) (hSent : wasSent seq trace = true) :
    (promised seq trace).isSome = true := by
  obtain ⟨r, -, hTrace⟩ := exists_sent hSent
  cases hLate : (ahead seq trace).any Entry.isEnd with
  | true =>
    rw [promised, if_pos hLate]
    rfl
  | false =>
    rw [hTrace, List.any_append, hLate, Bool.false_or, List.any_cons] at hEnd
    obtain ⟨e, hMem, hHere⟩ := List.any_eq_true.mp ((Bool.or_eq_true ..).mp hEnd |>.resolve_left nofun)
    rw [promised, hLate]
    refine List.findSome?_isSome_iff.mpr ⟨e, hMem, ?_⟩
    cases e with
    | ended | cutOff => rfl
    | _ => cases hHere

theorem mem_owed {number : Int} : number ∈ (owed trace).map Request.seq ↔
    wasSent number trace = true ∧ promised number trace = none := by
  simp only [wasSent_iff, List.mem_map, owed, List.mem_filter, Option.isNone_iff_eq_none]
  constructor
  · rintro ⟨r, ⟨hSent, hNone⟩, rfl⟩
    exact ⟨⟨r, hSent, rfl⟩, hNone⟩
  · rintro ⟨⟨r, hSent, rfl⟩, hNone⟩
    exact ⟨r, ⟨hSent, hNone⟩, rfl⟩

theorem owed_of_end (hEnd : trace.any Entry.isEnd = true) : owed trace = [] := by
  refine List.filter_eq_nil_iff.mpr fun r hMem hNone => ?_
  have hSome := promised_of_end hEnd (wasSent_iff.mpr (List.mem_map_of_mem hMem))
  rw [Option.isNone_iff_eq_none.mp hNone] at hSome
  cases hSome

theorem Ordered.of_staying (h : ∀ e ∈ entries, e.departs = false) : Ordered entries := by
  refine List.pairwise_of_forall_mem_list fun e hMem e' hMem' => ⟨fun hDeparts => ?_, fun hEnd => ?_⟩
  · simp [h e hMem] at hDeparts
  · cases (h e hMem).symm.trans (Entry.departs_of_isEnd hEnd)

end Trace

namespace Exchange

variable {x y : Exchange} {trace entries : List Entry} {seq : Nat} {s : Caller} {d : Client}

/-- What a step does to the loop and to the end of the connection. -/
structure Advances (x : Exchange) (entries : List Entry) (y : Exchange) : Prop where
  attends : ∀ e ∈ entries, e.attends = true → x.client.phase = .running
  departs : ∀ e ∈ entries, e.departs = true → y.client.phase ≠ .running
  ends : ∀ e ∈ entries, e.isEnd = true → x.isOver = false ∧ y.isOver = true
  order : Ordered entries
  leaves : x.client.phase ≠ .running → y.client.phase ≠ .running
  lasts : x.isOver = true → y.isOver = true
  holding : y.held.isSome = true → y.client.phase = .running
  emptied : y.emptied = true → y.client.phase ≠ .running

/-- The trace keeps the order in which the loop leaves and the connection ends. -/
structure Timely (x : Exchange) (trace : List Entry) : Prop where
  order : Ordered trace
  departed : ∀ e ∈ trace, e.departs = true → x.client.phase ≠ .running
  ended : ∀ e ∈ trace, e.isEnd = true → x.isOver = true
  holding : x.held.isSome = true → x.client.phase = .running
  emptied : x.emptied = true → x.client.phase ≠ .running

theorem timely_create (transport : Stream.Transport) : Timely (create transport) [] where
  order := .nil
  departed _ h := nomatch h
  ended _ h := nomatch h
  holding h := nomatch h
  emptied h := nomatch h

theorem Timely.next (h : Timely x trace) (hStep : Advances x entries y) :
    Timely y (trace ++ entries) where
  order := by
    refine h.order.append hStep.order (fun e hNow hAttends e' hOld => ?_) fun e hNow hEnd e' hOld => ?_
    · refine Bool.eq_false_iff.mpr fun hDeparts => ?_
      exact h.departed e' hOld hDeparts (hStep.attends e hNow hAttends)
    · refine Bool.eq_false_iff.mpr fun hEnded => ?_
      cases (h.ended e' hOld hEnded).symm.trans (hStep.ends e hNow hEnd).1
  departed e hMem hDeparts := (List.mem_append.mp hMem).elim
    (fun hOld => hStep.leaves (h.departed e hOld hDeparts)) fun hNow => hStep.departs e hNow hDeparts
  ended e hMem hEnd := (List.mem_append.mp hMem).elim
    (fun hOld => hStep.lasts (h.ended e hOld hEnd)) fun hNow => (hStep.ends e hNow hEnd).2
  holding := hStep.holding
  emptied := hStep.emptied

/-- A step of which nothing tells that the loop or the connection is at an end. -/
theorem Advances.staying (hAttends : ∀ e ∈ entries, e.attends = true → x.client.phase = .running)
    (hStaying : ∀ e ∈ entries, e.departs = false)
    (hLeaves : x.client.phase ≠ .running → y.client.phase ≠ .running)
    (hOver : x.isOver = true → y.isOver = true)
    (hHolding : y.held.isSome = true → y.client.phase = .running)
    (hEmptied : y.emptied = true → y.client.phase ≠ .running) : Advances x entries y where
  attends := hAttends
  departs e hMem hDeparts := by cases (hStaying e hMem).symm.trans hDeparts
  ends e hMem hEnd := by cases (hStaying e hMem).symm.trans (Entry.departs_of_isEnd hEnd)
  order := .of_staying hStaying
  leaves := hLeaves
  lasts := hOver
  holding := hHolding
  emptied := hEmptied

theorem Advances.same (h : Timely x trace)
    (hAttends : ∀ e ∈ entries, e.attends = true → x.client.phase = .running)
    (hStaying : ∀ e ∈ entries, e.departs = false) (hPhase : y.client.phase = x.client.phase)
    (hEmptied : y.emptied = x.emptied)
    (hHeld : y.held.isSome = true → x.client.phase = .running) : Advances x entries y := by
  refine .staying hAttends hStaying ?_ ?_ ?_ ?_
  · rw [hPhase]
    exact id
  · rw [isOver, isOver, hPhase, hEmptied]
    exact id
  · rw [hPhase]
    exact hHeld
  · rw [hPhase, hEmptied]
    exact h.emptied

theorem said_staying (said : List Message) (m : String) (writable : Bool) :
    ∀ e ∈ Entry.received m writable :: said.map .wrote, e.departs = false := by
  simp [Entry.departs]

theorem Turn.quiet (h : Turn x seq s d entries) :
    ∀ e ∈ entries, e.attends = false ∧ e.departs = false := by
  cases h <;> simp [Entry.attends, Entry.departs]

theorem loopTurn_staying {c : Client} (h : Client.LoopTurn c d entries) (hStays : d.phase = .running) :
    ∀ e ∈ entries, e.departs = false := by
  cases h with
  | handled => exact said_staying _ _ _
  | wrote | read => simp [Entry.departs]
  | unwritten | closed | failed | ended => cases hStays

/-- A step behind which the loop attends to nothing. -/
theorem Advances.departing (hOrder : Ordered entries)
    (hAttends : ∀ e ∈ entries, e.attends = true → x.client.phase = .running)
    (hEnds : ∀ e ∈ entries, e.isEnd = true → x.isOver = false ∧ y.isOver = true)
    (hOver : x.isOver = true → y.isOver = true) (hIdle : y.held = none)
    (hNot : y.client.phase ≠ .running) : Advances x entries y where
  attends := hAttends
  departs _ _ _ := hNot
  ends := hEnds
  order := hOrder
  leaves _ := hNot
  lasts := hOver
  holding h := by simp [hIdle] at h
  emptied _ := hNot

/-- A loop that has left holds no message. -/
theorem Timely.idle (h : Timely x trace) (hNot : x.client.phase ≠ .running) : x.held = none := by
  cases hHeld : x.held with
  | none => rfl
  | some m => exact absurd (h.holding (by simp [hHeld])) hNot

theorem Aside.advances (h : Aside x y entries) (hTimely : Timely x trace) :
    Advances x entries y := by
  cases h with
  | took hRunning => exact .same hTimely nofun nofun rfl rfl fun _ => hRunning
  | acted hHeld hHandled =>
    have hRunning := hTimely.holding (by simp [hHeld])
    exact .same hTimely (fun _ _ _ => hRunning) (said_staying _ _ _) hHandled.same.1 rfl nofun
  | stayed hTurn hStays =>
    have hRunning : x.client.phase = .running := by
      rcases hTurn.phases with ⟨hRunning, -⟩ | ⟨hRunning, -⟩ | ⟨-, hEnds⟩
      · exact hRunning
      · exact hRunning
      · cases hStays.symm.trans hEnds
    exact .same hTimely (fun _ _ _ => hRunning) (loopTurn_staying hTurn hStays)
      (hStays.trans hRunning.symm) rfl fun _ => hRunning
  | left hIdle hTurn hRunning hLeaves =>
    refine .departing (List.pairwise_singleton ..) (fun _ _ _ => hRunning) ?_ ?_ hIdle ?_
    · simp [Entry.isEnd]
    · simp [isOver, hRunning, hLeaves]
    · simp [hLeaves]
  | gaveUp hClosing hFirst =>
    have hNot : x.client.phase ≠ .running := by simp [hClosing]
    refine .departing (List.pairwise_singleton ..) ?_ ?_ (fun _ => rfl) (hTimely.idle hNot) hNot
    · simp [Entry.attends]
    · simp [isOver, hClosing, hFirst]
  | letGo hClosing hEmptied =>
    have hNot : x.client.phase ≠ .running := by simp [hClosing]
    refine .departing .nil nofun nofun (fun _ => ?_) (hTimely.idle hNot) ?_
    · simp [isOver, hEmptied]
    · simp [Client.letGo]
  | event | noEvent | closed | moved =>
    exact .same hTimely (by simp [Entry.attends]) (by simp [Entry.departs]) rfl rfl hTimely.holding
  | stopped hOver =>
    refine .departing .nil nofun nofun (fun _ => ?_) rfl ?_ <;> simp [isOver, Client.abort]
  | cutOff hGoes =>
    refine .departing (List.pairwise_singleton ..) ?_ ?_ (fun _ => ?_) rfl ?_
    · simp [Entry.attends]
    · exact fun e hMem _ => ⟨hGoes, by simp [isOver, Client.abort]⟩
    · simp [isOver, Client.abort]
    · simp [Client.abort]

theorem next?_advances {move : Move} (h : Timely x trace)
    (hStep : x.next? move = some (y, entries)) : Advances x entries y := by
  rcases next?_cases hStep with ⟨command, arguments, rfl, rfl⟩ | ⟨seq, s, d, hTurn, rfl⟩ | hAside
  · exact .same h nofun nofun rfl rfl h.holding
  · refine .same h (fun e hMem hAttends => ?_) (fun e hMem => (hTurn.quiet e hMem).2)
      hTurn.frame.2.1 rfl h.holding
    cases (hTurn.quiet e hMem).1.symm.trans hAttends
  · exact hAside.advances h

theorem Run.timely {transport : Stream.Transport} (hRun : Run (create transport) trace x) :
    Timely x trace := by
  induction hRun with
  | start => exact timely_create transport
  | step prior last ih => exact ih.next (next?_advances ih last)

/-- The numbers in the table, without those that their callers are about to take out. -/
def settledTable (x : Exchange) : List Nat := x.client.pending.filter fun seq => !(x.caller seq).isBusy

/-- What callers may rely on: each request that was sent has come to what it should, and, but for
callers that are about to take their numbers out, the table holds those that are still owed
something. Behind the end every request has come to something, and the table is empty. -/
structure Reliable (x : Exchange) (trace : List Entry) : Prop where
  waits : ∀ seq : Nat, wasSent seq trace = true → verdict seq trace = promised seq trace
  table : (x.settledTable.map Nat.cast).Perm ((owed trace).map Request.seq)
  counted : (∀ seq, (x.caller seq).isBusy = false) →
    x.client.pending.length = (owed trace).length
  decided : trace.any Entry.isEnd = true →
    ∀ seq : Nat, wasSent seq trace = true → (verdict seq trace).isSome = true
  emptied : trace.any Entry.isEnd = true → x.settledTable = []

/-- Whoever is not about to leave the table stands in it as long as nothing has decided its
request. -/
theorem Sound.mem_settledTable (h : Sound x trace) :
    seq ∈ x.settledTable ↔ wasSent seq trace = true ∧ verdict seq trace = none := by
  have hStanding := h.standing seq
  rw [settledTable, List.mem_filter]
  cases hCaller : x.caller seq with
  | unused | entering =>
    rw [hCaller] at hStanding
    have hOut : seq ∉ x.client.pending := fun hMem => hStanding.1 (.inl hMem)
    simp [hOut, hStanding.2]
  | withdrawing =>
    rw [hCaller] at hStanding
    have hUnsent : wasSent seq trace = false := hStanding
    simp [Caller.isBusy, hUnsent]
  | late =>
    rw [hCaller] at hStanding
    simp [Caller.isBusy, hStanding.2]
  | refused =>
    rw [hCaller] at hStanding
    simp [hStanding.1, hStanding.2]
  | holding | waiting | dropped =>
    rw [hCaller] at hStanding
    obtain ⟨⟨hSent, -⟩, hResult⟩ := hStanding
    rw [← hResult]
    simp only [Caller.isBusy, Bool.not_false, and_true, hSent, true_and]
    constructor
    · exact Client.result?_of_pending h.apart
    · intro hNone
      by_contra hOut
      have hSome := Client.result?_isSome hOut
      rw [hNone] at hSome
      cases hSome
  | returned =>
    rw [hCaller] at hStanding
    simp [hStanding.2.1, hStanding.2.2]

theorem Sound.table_perm (h : Sound x trace)
    (hWaits : ∀ seq : Nat, wasSent seq trace = true → verdict seq trace = promised seq trace) :
    (x.settledTable.map Nat.cast).Perm ((owed trace).map Request.seq) := by
  obtain ⟨numbers, hDistinct, hSent⟩ := h.once
  have hCast : Function.Injective (Nat.cast : Nat → Int) := fun _ _ => Int.ofNat.inj
  rw [List.perm_ext_iff_of_nodup]
  · intro number
    rw [mem_owed]
    constructor
    · intro hMem
      obtain ⟨seq, hTable, rfl⟩ := List.mem_map.mp hMem
      obtain ⟨hBefore, hNone⟩ := h.mem_settledTable.mp hTable
      exact ⟨hBefore, (hWaits seq hBefore).symm.trans hNone⟩
    · rintro ⟨hBefore, hNone⟩
      have hNumber := wasSent_iff.mp hBefore
      rw [hSent] at hNumber
      obtain ⟨seq, -, rfl⟩ := List.mem_map.mp hNumber
      exact List.mem_map_of_mem (h.mem_settledTable.mpr ⟨hBefore, (hWaits seq hBefore).trans hNone⟩)
  · exact (h.apart.distinct.filter _).map hCast
  · have hAll : ((sentRequests trace).map Request.seq).Nodup := hSent ▸ hDistinct.map hCast
    exact hAll.sublist (List.filter_sublist.map _)

theorem Sound.reliable (h : Sound x trace)
    (hWaits : ∀ seq : Nat, wasSent seq trace = true → verdict seq trace = promised seq trace) :
    Reliable x trace where
  waits := hWaits
  table := h.table_perm hWaits
  counted hStay := by
    have hAll : x.settledTable = x.client.pending :=
      List.filter_eq_self.mpr fun seq _ => by simp [hStay seq]
    have hLength := (h.table_perm hWaits).length_eq
    rwa [hAll, List.length_map, List.length_map] at hLength
  decided hEnd seq hSent := by
    rw [hWaits seq hSent]
    exact promised_of_end hEnd hSent
  emptied hEnd := by
    have hNone := h.table_perm hWaits
    rw [owed_of_end hEnd] at hNone
    exact List.map_eq_nil_iff.mp (List.perm_nil.mp hNone)

/-- Behind the end a request that nothing has decided can only time out. -/
theorem Timely.stranded (h : Timely x trace) (hStep : Advances x entries y)
    (hEnd : trace.any Entry.isEnd = true) {number : Int} (hSent : wasSent number trace = true)
    (hOpen : verdict number trace = none) : verdict number (trace ++ entries) = none ∨
      ∃ command limit, verdict number (trace ++ entries) = some (.error (.timeout command limit)) := by
  obtain ⟨e, hMem, hEnds⟩ := List.any_eq_true.mp hEnd
  rw [verdict_append hSent, hOpen, Option.none_or]
  cases hDecision : entries.findSome? (decision number) with
  | none => exact .inl rfl
  | some result =>
    obtain ⟨e', hNow, hSays⟩ := List.exists_of_findSome?_eq_some hDecision
    cases e' with
    | received text writable =>
      exact absurd (hStep.attends _ hNow rfl) (h.departed e hMem (Entry.departs_of_isEnd hEnds))
    | ended => cases (h.ended e hMem hEnds).symm.trans (hStep.ends _ hNow rfl).1
    | expired seq command limit =>
      simp only [decision] at hSays
      split at hSays
      · exact .inr ⟨command, limit, hSays.symm⟩
      · cases hSays
    | _ => cases hSays

end Exchange

/-- In every run, with callers and the loop suspended anywhere, every wait returns what decided its
request first, and the table holds the requests that the loop awaits an answer for. What they come
to is what they should come to, the first answer that was read, the end of the connection or the end
of their time, exactly if no request slips: by an answer that is left unheard, by a loop that is
stopped, or by being sent behind the end. A request that has slipped waits until its time is over. -/
theorem waits_return_answers_iff {transport : Stream.Transport} {trace : List Entry} {x : Exchange}
    (hRun : Exchange.Run (.create transport) trace x) :
    (x.Correlated trace ∧ x.Counted trace) ∧
    (x.Reliable trace ↔ ∀ seq : Nat, wasSent seq trace = true → ¬ Slips seq trace) ∧
    ∀ seq : Nat, trace.any Entry.isEnd = true → wasSent seq trace = true →
      verdict seq trace = none → ∀ move y entries, x.next? move = some (y, entries) →
        verdict seq (trace ++ entries) = none ∨
          ∃ command limit, verdict seq (trace ++ entries) = some (.error (.timeout command limit)) := by
  have hTimely := hRun.timely
  refine ⟨⟨hRun.sound.correlated, hRun.sound.counted⟩, ⟨fun hReliable seq hSent => ?_,
    fun hSound => hRun.sound.reliable fun seq hSent => ?_⟩,
    fun seq hEnd hSent hOpen move y entries hStep => ?_⟩
  · exact (verdict_eq_promised_iff hTimely.order hSent).mp (hReliable.waits seq hSent)
  · exact (verdict_eq_promised_iff hTimely.order hSent).mpr (hSound seq hSent)
  · exact hTimely.stranded (Exchange.next?_advances hTimely hStep) hEnd hSent hOpen

/-- The message with which a request is answered. -/
def answerText (seq : Nat) (command : String) (success : Bool) : String :=
  (Message.response ⟨1, seq, success, command, none, none⟩).text

/-- Two requests are sent. The second is turned down before anybody waits for it, and the time for
the first is over. -/
def crossedAnswers : Option (List Entry × Exchange) :=
  (Exchange.create .fresh).follow?
    [.begin "threads" none, .advance 1, .begin "pause" none, .advance 2, .loop, .loop,
      .transport (.arrive (Utf8.encode (Frame.encode (answerText 2 "pause" false)).toList)),
      .loop, .loop, .wait 1 (.ofSecs 1), .loop, .expire 1, .advance 1, .wait 2 (.ofSecs 1)]

theorem crossedAnswers_shown :
    crossedAnswers.map (fun (trace, x) => (trace.any Entry.departs,
      x.caller 1 matches .returned (.error (.timeout "threads" _)),
      x.caller 2 matches .waiting "pause" _,
      verdict 2 trace matches some (.error (.rejected "pause" "")), x.client.pending)) =
      some (false, true, true, true, []) := by
  decide +kernel

theorem crossedAnswers_reliable :
    ∃ trace x y result, crossedAnswers = some (trace, x) ∧ x.Reliable trace ∧
      verdict 2 trace = some (.error (.rejected "pause" "")) ∧
      x.next? (.advance 2) = some (y, [.returned 2 (.error (.rejected "pause" ""))]) ∧
      x.caller 1 = .returned result ∧ verdict 1 trace = some result ∧ owed trace = [] := by
  obtain ⟨⟨trace, x⟩, hEval, hShown⟩ := Option.map_eq_some_iff.mp crossedAnswers_shown
  simp only [Prod.mk.injEq] at hShown
  obtain ⟨hStaying, hFirst, hSecond, hVerdict, hPending⟩ := hShown
  obtain ⟨⟨hCorrelated, -⟩, hIff, -⟩ := waits_return_answers_iff (Exchange.run_of_follow? hEval)
  have hReliable : x.Reliable trace :=
    hIff.mpr fun seq _ => not_slips_of_staying fun e hMem =>
      Bool.eq_false_iff.mpr (List.any_eq_false.mp hStaying e hMem)
  have hResult : verdict 2 trace = some (.error (.rejected "pause" "")) := by
    split at hVerdict
    · assumption
    · cases hVerdict
  obtain ⟨limit, hWaiting⟩ : ∃ limit, x.caller 2 = .waiting "pause" limit := by
    split at hSecond
    · exact ⟨_, by assumption⟩
    · cases hSecond
  obtain ⟨result, hReturned⟩ : ∃ result, x.caller 1 = .returned result := by
    split at hFirst
    · exact ⟨_, by assumption⟩
    · cases hFirst
  obtain ⟨-, y, hStep, -⟩ := hCorrelated.decided 2 "pause" limit _ hWaiting hResult
  refine ⟨trace, x, y, result, hEval, hReliable, hResult, hStep, hReturned,
    hCorrelated.returned 1 result hReturned, ?_⟩
  have hNone := hReliable.table
  rw [Exchange.settledTable, hPending] at hNone
  exact List.map_eq_nil_iff.mp (List.nil_perm.mp hNone)

/-- The answer to a request arrives together with a malformed frame. -/
def answeredBeforeFault : Option (List Entry × Exchange) :=
  (Exchange.create .fresh).follow?
    [.begin "threads" none, .advance 1, .loop,
      .transport (.arrive (Utf8.encode
        (Frame.encode (answerText 1 "threads" true) ++ "X-Other: 1\r\n\r\n").toList)),
      .loop, .loop, .loop, .wait 1 (.ofSecs 1), .advance 1]

/-- A loop that does not leave in time is stopped while a caller waits. -/
def stoppedEarly : Option (List Entry × Exchange) :=
  (Exchange.create .fresh).follow?
    [.begin "threads" none, .advance 1, .loop, .wait 1 (.ofSecs 1), .dropSender, .abort]

theorem answeredBeforeFault_shown :
    answeredBeforeFault.map (fun (trace, x) =>
      (x.caller 1 matches .returned (.error .closed), promised 1 trace matches some (.ok _))) =
      some (true, true) := by
  decide +kernel

theorem stoppedEarly_shown :
    stoppedEarly.map (fun (trace, x) => (trace.any Entry.isEnd, x.client.pending,
      x.caller 0 matches .unused, x.caller 1 matches .waiting "threads" _, x.client.nextSeq)) =
      some (true, [1], true, true, 2) := by
  decide +kernel

/-- Not every wait returns the answer that came before the end, and not every end empties the
table. -/
theorem answers_left_unheard :
    ¬ (∀ trace x, Exchange.Run (.create .fresh) trace x → ∀ (seq : Nat) result,
        x.caller seq = .returned result → promised seq trace = some result) ∧
    ¬ ∀ trace x, Exchange.Run (.create .fresh) trace x → trace.any Entry.isEnd = true →
        (∀ seq, (x.caller seq).isBusy = false) → x.client.pending = [] := by
  constructor
  · intro hAll
    obtain ⟨⟨trace, x⟩, hEval, hShown⟩ := Option.map_eq_some_iff.mp answeredBeforeFault_shown
    simp only [Prod.mk.injEq] at hShown
    obtain ⟨hReturned, hPromised⟩ := hShown
    have hCaller : x.caller 1 = .returned (.error .closed) := by
      split at hReturned
      · assumption
      · cases hReturned
    have hClosed : promised 1 trace = _ :=
      hAll trace x (Exchange.run_of_follow? hEval) 1 _ hCaller
    rw [hClosed] at hPromised
    cases hPromised
  · intro hAll
    obtain ⟨⟨trace, x⟩, hEval, hShown⟩ := Option.map_eq_some_iff.mp stoppedEarly_shown
    simp only [Prod.mk.injEq] at hShown
    obtain ⟨hEnd, hPending, hZeroth, hFirst, hNext⟩ := hShown
    have hRun := Exchange.run_of_follow? hEval
    have hStaying : ∀ seq, (x.caller seq).isBusy = false
      | 0 => by split at hZeroth <;> simp_all [Caller.isBusy]
      | 1 => by split at hFirst <;> simp_all [Caller.isBusy]
      | seq + 2 => by
        rw [hRun.sound.fresh (seq + 2) (by omega)]
        rfl
    have hNone := hAll trace x hRun hEnd hStaying
    rw [hPending] at hNone
    cases hNone

end EditorBridge.Adapter
