import EditorBridge.Proofs.Adapter.Run
/-!
The events of an adapter on their way to whoever asks for them. Each event that the loop acts on is
put behind those that wait, or dropped if the queue is full; each event that is taken is the one
that has waited longest. So the events that are taken are some of those that were received, in the
same order, and an event is left out only where the queue was full.
-/
namespace EditorBridge.Adapter

namespace Entry

/-- The event that the loop acts on. -/
def event? : Entry → Option Event
  | .received text _ =>
    match Message.parse text with
    | .ok (.event e) => some e
    | _ => none
  | _ => none

def taken? : Entry → Option Event
  | .took e => some e
  | _ => none

/-- Does it tell of somebody who asks for an event? -/
def asks : Entry → Bool
  | .took _ | .noEvent => true
  | _ => false

end Entry

/-- The event that is received at a place of a trace. -/
def eventAt (trace : List Entry) (n : Nat) : Option Event := (trace)[n]?.bind Entry.event?

def receivedEvents (trace : List Entry) : List Event := trace.filterMap Entry.event?

/-- The events that were taken from the queue. -/
def taken (trace : List Entry) : List Event := trace.filterMap Entry.taken?

/-- How many of the events that were queued, at the places `kept`, are not taken where a place of a
trace is reached. -/
def unread (trace : List Entry) (kept : List Nat) (n : Nat) : Nat :=
  kept.countP (· < n) - (taken (trace.take n)).length

/-- How a trace accounts for every event that was received: `kept` are the places of those that were
queued, and the others were dropped. -/
structure Accounted (trace : List Entry) (waiting : List Event) (kept : List Nat) : Prop where
  ordered : kept.Pairwise (· < ·)
  /-- What was kept is what was taken and, behind it, what still waits. -/
  events : kept.map (eventAt trace) = (taken trace ++ waiting).map some
  sublist : (taken trace ++ waiting).Sublist (receivedEvents trace)
  /-- Nothing is taken before it was queued. -/
  taken_le : ∀ n < trace.length, (taken (trace.take n)).length ≤ kept.countP (· < n)
  /-- Never do more than `eventCapacity` events wait, and one is dropped exactly if so many do when
  it is received. -/
  unread_le : ∀ n < trace.length, unread trace kept n ≤ eventCapacity
  dropped_iff : ∀ n e, eventAt trace n = some e → (n ∉ kept ↔ unread trace kept n = eventCapacity)
  bounded : waiting.length ≤ eventCapacity

/-- What has become of an event that was received at a place: it was kept behind those that were kept
before, and is taken or waits in that order; or it was dropped, as the queue was full. -/
def Settled (trace : List Entry) (waiting : List Event) (kept : List Nat) (n : Nat) (e : Event) :
    Prop :=
  n ∈ kept ∧ (taken trace ++ waiting)[kept.countP (· < n)]? = some e ∨
    n ∉ kept ∧ unread trace kept n = eventCapacity

/-- What a step does to the events that wait, by what the trace tells of it; does somebody ask for an
event in it? -/
inductive Queueing (waiting : List Event) : Bool → List Entry → List Event → Prop where
  | quiet {entries : List Entry} (hEvents : ∀ e ∈ entries, e.event? = none)
      (hOther : ∀ e ∈ entries, e.asks = false) : Queueing waiting false entries waiting
  | kept {entry : Entry} {e : Event} (hEvent : entry.event? = some e)
      (hRoom : waiting.length < eventCapacity) : Queueing waiting false [entry] (waiting ++ [e])
  | dropped {entry : Entry} {e : Event} (hEvent : entry.event? = some e)
      (hFull : ¬ waiting.length < eventCapacity) : Queueing waiting false [entry] waiting
  | took {e : Event} {rest : List Event} (hWaiting : waiting = e :: rest) :
      Queueing waiting true [.took e] rest
  | missed (hNone : waiting = []) : Queueing waiting true [.noEvent] waiting

section Account

variable {trace entries : List Entry} {entry : Entry} {waiting : List Event} {kept : List Nat}
  {e : Event} {n : Nat}

theorem eventAt_lt (h : eventAt trace n = some e) : n < trace.length := by
  refine Nat.lt_of_not_le fun hBehind => ?_
  simp [eventAt, List.getElem?_eq_none hBehind] at h

theorem eventAt_append (h : n < trace.length) : eventAt (trace ++ entries) n = eventAt trace n := by
  rw [eventAt, List.getElem?_append_left h, eventAt]

theorem eventAt_length : eventAt (trace ++ [entry]) trace.length = entry.event? := by
  simp [eventAt]

theorem asks_of_event? (h : entry.event? = some e) : entry.asks = false := by
  cases entry with
  | received => rfl
  | _ => cases h

theorem taken?_of_not_asks (h : entry.asks = false) : entry.taken? = none := by
  cases entry with
  | took => cases h
  | _ => rfl

theorem Queueing.nothing : Queueing waiting false [] waiting :=
  .quiet (fun _ h => nomatch h) fun _ h => nomatch h

/-- Where the trace tells nothing, the queue is left alone. -/
theorem Queueing.eq_of_nil {waiting' : List Event} {asks : Bool}
    (h : Queueing waiting asks [] waiting') : waiting' = waiting := by
  cases h
  rfl

/-- The trace tells of somebody who asks exactly where somebody does. -/
theorem Queueing.asks {waiting' : List Event} {asks : Bool}
    (h : Queueing waiting asks entries waiting') : ∀ e ∈ entries, e.asks = asks := by
  cases h with
  | quiet hEvents hOther => exact hOther
  | kept hEvent | dropped hEvent => simpa using asks_of_event? hEvent
  | took | missed => simp [Entry.asks]

namespace Accounted

theorem nil : Accounted [] [] [] where
  ordered := .nil
  events := rfl
  sublist := .refl _
  taken_le _ h := nomatch h
  unread_le _ h := nomatch h
  dropped_iff _ _ h := nomatch h
  bounded := Nat.zero_le _

theorem lt (h : Accounted trace waiting kept) : ∀ n ∈ kept, n < trace.length := by
  intro n hMem
  have hEvent : eventAt trace n ∈ (taken trace ++ waiting).map some :=
    h.events ▸ List.mem_map_of_mem hMem
  obtain ⟨e, -, hSome⟩ := List.mem_map.mp hEvent
  exact eventAt_lt hSome.symm

/-- At the end, what is kept and not taken is what waits. -/
theorem countP_length (h : Accounted trace waiting kept) :
    kept.countP (· < trace.length) = (taken trace).length + waiting.length := by
  have hAll : kept.countP (· < trace.length) = kept.length :=
    List.countP_eq_length.mpr (by simpa using h.lt)
  rw [hAll]
  simpa using congrArg List.length h.events

/-- What comes behind the trace does not change how much was unread at a place of it. -/
theorem unread_append {new : List Nat} (entry : Entry) (hNew : ∀ m ∈ new, m = trace.length)
    (hLe : n ≤ trace.length) : (kept ++ new).countP (· < n) = kept.countP (· < n) ∧
      unread (trace ++ [entry]) (kept ++ new) n = unread trace kept n := by
  have hNone : new.countP (· < n) = 0 := by
    refine List.countP_eq_zero.mpr fun m hMem => ?_
    simpa [hNew m hMem] using hLe
  have hCount : (kept ++ new).countP (· < n) = kept.countP (· < n) := by
    rw [List.countP_append, hNone, Nat.add_zero]
  refine ⟨hCount, ?_⟩
  rw [unread, hCount, List.take_append_of_le_length hLe, unread]

/-- An entry behind the trace finds the queue as it is at the end. -/
theorem unread_length (h : Accounted trace waiting kept) :
    unread trace kept trace.length = waiting.length := by
  rw [unread, h.countP_length, List.take_length, Nat.add_sub_cancel_left]

/-- One entry more, with its own place among those that are kept or not. -/
theorem extend {waiting' : List Event} {new : List Nat} (h : Accounted trace waiting kept)
    (hNew : ∀ m ∈ new, m = trace.length) (hOnce : new.Pairwise (· < ·))
    (hEvents : (kept ++ new).map (eventAt (trace ++ [entry])) =
      (taken (trace ++ [entry]) ++ waiting').map some)
    (hSublist : (taken (trace ++ [entry]) ++ waiting').Sublist
      (receivedEvents (trace ++ [entry])))
    (hFull : ∀ e, entry.event? = some e → (trace.length ∉ new ↔ waiting.length = eventCapacity))
    (hBounded : waiting'.length ≤ eventCapacity) :
    Accounted (trace ++ [entry]) waiting' (kept ++ new) := by
  have hPlace {n : Nat} (hLt : n < (trace ++ [entry]).length) : n ≤ trace.length := by
    simpa [Nat.lt_succ_iff] using hLt
  constructor
  · refine List.pairwise_append.mpr ⟨h.ordered, hOnce, fun n hMem m hLast => ?_⟩
    rw [hNew m hLast]
    exact h.lt n hMem
  · exact hEvents
  · exact hSublist
  · intro n hLt
    rw [(unread_append entry hNew (hPlace hLt)).1,
      List.take_append_of_le_length (hPlace hLt)]
    rcases Nat.lt_or_eq_of_le (hPlace hLt) with hBefore | rfl
    · exact h.taken_le n hBefore
    · rw [h.countP_length, List.take_length]
      exact Nat.le_add_right ..
  · intro n hLt
    rw [(unread_append entry hNew (hPlace hLt)).2]
    rcases Nat.lt_or_eq_of_le (hPlace hLt) with hBefore | rfl
    · exact h.unread_le n hBefore
    · rw [h.unread_length]
      exact h.bounded
  · intro n e hEvent
    have hLe := hPlace (eventAt_lt hEvent)
    rw [(unread_append entry hNew hLe).2, List.mem_append, not_or]
    rcases Nat.lt_or_eq_of_le hLe with hBefore | rfl
    · rw [eventAt_append hBefore] at hEvent
      have hOther : n ∉ new := fun hMem => Nat.ne_of_lt hBefore (hNew n hMem)
      simpa [hOther] using h.dropped_iff n e hEvent
    · rw [eventAt_length] at hEvent
      have hOther : trace.length ∉ kept := fun hMem => Nat.lt_irrefl _ (h.lt _ hMem)
      rw [h.unread_length]
      simpa [hOther] using hFull e hEvent
  · exact hBounded

theorem map_eventAt (h : Accounted trace waiting kept) :
    kept.map (eventAt (trace ++ [entry])) = (taken trace ++ waiting).map some := by
  rw [← h.events]
  exact List.map_congr_left fun n hMem => eventAt_append (h.lt n hMem)

/-- Nothing is queued; what waited is taken or still waits. -/
theorem pass {waiting' : List Event} (h : Accounted trace waiting kept)
    (hSame : taken trace ++ waiting = taken (trace ++ [entry]) ++ waiting')
    (hFull : ∀ e, entry.event? = some e → waiting.length = eventCapacity)
    (hBounded : waiting'.length ≤ eventCapacity) :
    Accounted (trace ++ [entry]) waiting' kept := by
  have hAll : Accounted (trace ++ [entry]) waiting' (kept ++ []) := by
    refine h.extend nofun .nil ?_ ?_ (by simpa using hFull) hBounded
    · rw [List.append_nil, h.map_eventAt, hSame]
    · rw [← hSame, receivedEvents, List.filterMap_append]
      exact h.sublist.trans (List.sublist_append_left ..)
  rwa [List.append_nil] at hAll

theorem keep (h : Accounted trace waiting kept) (hEvent : entry.event? = some e)
    (hRoom : waiting.length < eventCapacity) :
    Accounted (trace ++ [entry]) (waiting ++ [e]) (kept ++ [trace.length]) := by
  have hTaken : taken (trace ++ [entry]) = taken trace := by
    simp [taken, taken?_of_not_asks (asks_of_event? hEvent)]
  have hReceived : receivedEvents (trace ++ [entry]) = receivedEvents trace ++ [e] := by
    simp [receivedEvents, hEvent]
  refine h.extend (by simp) (List.pairwise_singleton ..) ?_ ?_ (by simp [Nat.ne_of_lt hRoom]) ?_
  · rw [List.map_append, h.map_eventAt, hTaken]
    simp [eventAt_length, hEvent]
  · rw [hTaken, hReceived, ← List.append_assoc]
    exact h.sublist.append (.refl _)
  · simpa using Nat.succ_le_of_lt hRoom

theorem quiet (h : Accounted trace waiting kept) (hEvents : ∀ e ∈ entries, e.event? = none)
    (hOther : ∀ e ∈ entries, e.asks = false) : Accounted (trace ++ entries) waiting kept := by
  induction entries generalizing trace with
  | nil => rwa [List.append_nil]
  | cons entry rest ih =>
    rw [List.forall_mem_cons] at hEvents hOther
    have hFirst : Accounted (trace ++ [entry]) waiting kept :=
      h.pass (by simp [taken, taken?_of_not_asks hOther.1]) (by simp [hEvents.1]) h.bounded
    rw [← List.singleton_append, ← List.append_assoc]
    exact ih hFirst hEvents.2 hOther.2

/-- What a step does to the events that wait keeps the account. -/
theorem queueing {waiting' : List Event} {asks : Bool} (h : Accounted trace waiting kept)
    (hQueueing : Queueing waiting asks entries waiting') :
    ∃ kept', Accounted (trace ++ entries) waiting' kept' := by
  cases hQueueing with
  | quiet hEvents hOther => exact ⟨kept, h.quiet hEvents hOther⟩
  | kept hEvent hRoom => exact ⟨_, h.keep hEvent hRoom⟩
  | @dropped entry e hEvent hFull =>
    refine ⟨kept, h.pass ?_ (fun _ _ => ?_) h.bounded⟩
    · simp [taken, taken?_of_not_asks (asks_of_event? hEvent)]
    · exact Nat.le_antisymm h.bounded (Nat.le_of_not_lt hFull)
  | @took e rest hWaiting =>
    subst hWaiting
    exact ⟨kept, h.pass (by simp [taken, Entry.taken?]) nofun (Nat.le_of_succ_le h.bounded)⟩
  | missed => exact ⟨kept, h.pass (by simp [taken, Entry.taken?]) nofun h.bounded⟩

theorem settled (h : Accounted trace waiting kept) (hEvent : eventAt trace n = some e) :
    Settled trace waiting kept n e := by
  by_cases hMem : n ∈ kept
  · left
    refine ⟨hMem, ?_⟩
    obtain ⟨before, after, hKept⟩ := List.append_of_mem hMem
    have hOrdered := h.ordered
    rw [hKept, List.pairwise_append, List.pairwise_cons] at hOrdered
    have hBefore : before.countP (· < n) = before.length :=
      List.countP_eq_length.mpr fun m hm => by
        simpa using hOrdered.2.2 m hm n (List.mem_cons_self ..)
    have hAfter : after.countP (· < n) = 0 :=
      List.countP_eq_zero.mpr fun m hm => by simpa using Nat.le_of_lt (hOrdered.2.1.1 m hm)
    have hIndex : kept.countP (· < n) = before.length := by
      rw [hKept, List.countP_append, List.countP_cons, hBefore, hAfter]
      simp
    have hPlace : (kept.map (eventAt trace))[before.length]? = some (some e) := by
      simp [hKept, hEvent]
    rw [h.events, List.getElem?_map] at hPlace
    obtain ⟨e', hFound, hSame⟩ := Option.map_eq_some_iff.mp hPlace
    rw [hIndex, hFound, hSame]
  · exact .inr ⟨hMem, (h.dropped_iff n e hEvent).mp hMem⟩

/-- What is taken or waits is what was received while there was room for it. -/
theorem mem_iff (h : Accounted trace waiting kept) : e ∈ taken trace ++ waiting ↔
    ∃ n, eventAt trace n = some e ∧ unread trace kept n < eventCapacity := by
  have hMem : e ∈ taken trace ++ waiting ↔ ∃ n ∈ kept, eventAt trace n = some e := by
    have hSome : some e ∈ kept.map (eventAt trace) ↔ e ∈ taken trace ++ waiting := by
      simp [h.events]
    rw [← hSome, List.mem_map]
  have hKept {n : Nat} (hEvent : eventAt trace n = some e) :
      n ∈ kept ↔ unread trace kept n < eventCapacity := by
    have hDropped := h.dropped_iff n e hEvent
    have hLe := h.unread_le n (eventAt_lt hEvent)
    by_cases hOut : n ∈ kept
    · have hNe : unread trace kept n ≠ eventCapacity := fun hFull => hDropped.mpr hFull hOut
      exact iff_of_true hOut (by omega)
    · exact iff_of_false hOut (by rw [hDropped.mp hOut]; exact Nat.lt_irrefl _)
  rw [hMem]
  constructor
  · rintro ⟨n, hIn, hEvent⟩
    exact ⟨n, hEvent, (hKept hEvent).mp hIn⟩
  · rintro ⟨n, hEvent, hRoom⟩
    exact ⟨n, (hKept hEvent).mpr hRoom, hEvent⟩

end Accounted
end Account

namespace Client

/-- Does somebody ask for an event? -/
def Action.asks : Action → Bool
  | .takeEvent | .missEvent => true
  | _ => false

variable {c d : Client} {m : String} {trace entries : List Entry} {action : Action}

/-- Acting on a message puts the event that it is behind those that wait, if there is room. -/
theorem Handled.queueing {said : List Message} (h : Handled m c d said) (writable : Bool) :
    Queueing c.events false (.received m writable :: said.map .wrote) d.events := by
  have hQuiet (hParse : (Entry.received m writable).event? = none) :
      Queueing c.events false (.received m writable :: said.map .wrote) c.events := by
    refine .quiet (List.forall_mem_cons.mpr ⟨hParse, ?_⟩) ?_
    · simp [Entry.event?]
    · simp [Entry.asks]
  cases h with
  | dropped hParse => exact hQuiet (by simp only [Entry.event?, hParse])
  | @resolved r hParse =>
    have hEvents : (c.resolve r).events = c.events := by
      rcases resolve_cases c r with ⟨_, -, -, hEq⟩ | ⟨-, hEq⟩ <;> rw [hEq]
    rw [hEvents]
    exact hQuiet (by simp only [Entry.event?, hParse])
  | @queued e hParse =>
    have hEvent : (Entry.received m writable).event? = some e := by simp only [Entry.event?, hParse]
    unfold queueEvent
    split
    · rename_i hRoom
      exact .kept hEvent hRoom
    · rename_i hFull
      exact .dropped hEvent hFull
  | replied hParse | unreplied hParse => exact hQuiet (by simp only [Entry.event?, hParse])

theorem LoopTurn.queueing (h : LoopTurn c d entries) :
    Queueing c.events false entries d.events := by
  cases h with
  | handled hRunning hAccepted hOpen hReceive hHandled => exact hHandled.queueing c.writable
  | wrote | unwritten | closed | read | failed | ended =>
    exact .quiet (by simp [Entry.event?]) (by simp [Entry.asks])

theorem Turn.queueing (h : Turn c action d entries) :
    Queueing c.events action.asks entries d.events := by
  cases h with
  | loop hTurn => exact hTurn.queueing
  | took hEvents => exact .took hEvents
  | missed hEvents => exact .missed hEvents
  | sent | refused | returned | expired | dropped | aborted | moved =>
    exact .quiet (by simp [Entry.event?]) (by simp [Entry.asks])

/-- In every run each event that was received is accounted for. -/
theorem Run.accounted {transport : Stream.Transport} (hRun : Run (create transport) trace c) :
    ∃ kept, Accounted trace c.events kept := by
  induction hRun with
  | start => exact ⟨[], .nil⟩
  | step prior last ih =>
    obtain ⟨kept, hAccount⟩ := ih
    exact hAccount.queueing (Client.turn last).queueing

end Client
end EditorBridge.Adapter
