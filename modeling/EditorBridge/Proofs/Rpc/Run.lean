import EditorBridge.Rpc.Client
/-!
Runs of a client. Callers, the loop, the clock and the peer act in any order, and the trace of a run
tells which calls were sent, which messages were received and what they brought about. What a single
step can do to the open calls is said once, in `Change`.
-/
namespace EditorBridge.Rpc

/-- What can happen to a client. -/
inductive Event where
  | call (method : String) (params : Option Json)
  | notify (method : String) (params : Option Json)
  | expire (id : Nat)
  | loop
  | dropSender
  | abort
  /-- Bytes arrive or end, or what was sent is written, or writing fails. -/
  | transport (change : Stream.Transport → Stream.Transport)

/-- What a trace tells. -/
inductive Entry where
  | sent (id : Nat)
  | refused (id : Nat) (error : CallError)
  | received (text : String)
  | brought (effect : Effect)
deriving Repr

/-- The messages that were received. -/
def messages (trace : List Entry) : List String :=
  trace.filterMap fun
    | .received text => some text
    | _ => none

@[simp] theorem messages_nil : messages [] = [] := rfl

@[simp] theorem messages_received (m : String) (trace : List Entry) :
    messages (.received m :: trace) = m :: messages trace := rfl

@[simp] theorem messages_sent (id : Nat) (trace : List Entry) :
    messages (.sent id :: trace) = messages trace := rfl

@[simp] theorem messages_refused (id : Nat) (e : CallError) (trace : List Entry) :
    messages (.refused id e :: trace) = messages trace := rfl

@[simp] theorem messages_brought (effect : Effect) (trace : List Entry) :
    messages (.brought effect :: trace) = messages trace := rfl

@[simp] theorem messages_append (first second : List Entry) :
    messages (first ++ second) = messages first ++ messages second :=
  List.filterMap_append ..

@[simp] theorem messages_map_brought (effects : List Effect) :
    messages (effects.map .brought) = [] := by
  induction effects with
  | nil => rfl
  | cons effect effects ih => exact ih

/-- The response in a text, if the text is one to the call of the given number. -/
def answers (id : Nat) (text : String) : Option Response :=
  match Inbound.parse text with
  | .ok (.response r) => if r.id.nat? = some id then some r else none
  | _ => none

/-- A text that answers one call answers no other. -/
theorem answers_eq_none_of_ne {id other : Nat} {text : String} {r : Response}
    (h : answers other text = some r) (hNe : id ≠ other) : answers id text = none := by
  unfold answers at h ⊢
  split at h
  · split at h
    · simp_all [Ne.symm hNe]
    · cases h
  · cases h

namespace Client

/-- The message that the next step of the loop takes. -/
def inbound? (c : Client) : Option String :=
  if c.phase = .running ∧ c.accepted = [] ∧ c.isOpen then
    match c.connection.receive.1 with
    | .message m => some m
    | _ => none
  else none

/-- What becomes of a client and what the trace tells about it; none when the loop has nothing to
do. -/
def next? (answer : Request → Response) (c : Client) : Event → Option (Client × List Entry)
  | .call method params =>
    match c.call method params with
    | (d, .ok id) => some (d, [.sent id])
    | (d, .error e) => some (d, [.refused c.nextId e])
  | .notify method params => some ((c.notify method params).1, [])
  | .expire id => some ((c.expire id).1, (c.expire id).2.map .brought)
  | .loop =>
    (c.loopStep? answer).map fun (d, effects) =>
      (d, c.inbound?.toList.map .received ++ effects.map .brought)
  | .dropSender => some (c.dropSender, [])
  | .abort => some (c.abort.1, c.abort.2.map .brought)
  | .transport change => some ({ c with connection := c.connection.onto change }, [])

/-- The steps of a client one after the other, with their trace. -/
inductive Run (answer : Request → Response) (c : Client) : List Entry → Client → Prop where
  | start : Run answer c [] c
  | step {trace entries : List Entry} {d e : Client} {event : Event} (prior : Run answer c trace d)
      (last : d.next? answer event = some (e, entries)) : Run answer c (trace ++ entries) e

/-- What comes of given events one after the other, if each of them can happen. -/
def follow? (answer : Request → Response) (c : Client) :
    List Event → Option (List Entry × Client)
  | [] => some ([], c)
  | event :: rest =>
    match c.next? answer event with
    | none => none
    | some (d, entries) => (follow? answer d rest).map fun (trace, e) => (entries ++ trace, e)

theorem Run.trans {answer : Request → Response} {c d e : Client} {first second : List Entry}
    (hFirst : Run answer c first d) (hSecond : Run answer d second e) :
    Run answer c (first ++ second) e := by
  induction hSecond with
  | start => simpa using hFirst
  | step prior last ih => rw [← List.append_assoc]; exact .step ih last

theorem run_of_follow? {answer : Request → Response} {c d : Client} {events : List Event}
    {trace : List Entry} (h : c.follow? answer events = some (trace, d)) :
    Run answer c trace d := by
  induction events generalizing c trace with
  | nil =>
    simp only [follow?, Option.some.injEq, Prod.mk.injEq] at h
    obtain ⟨rfl, rfl⟩ := h
    exact .start
  | cons event rest ih =>
    unfold follow? at h
    split at h
    · cases h
    · rename_i e entries hStep
      obtain ⟨⟨more, f⟩, hRest, hEnd⟩ := Option.map_eq_some_iff.mp h
      simp only [Prod.mk.injEq] at hEnd
      obtain ⟨rfl, rfl⟩ := hEnd
      exact Run.trans (.step .start hStep) (ih hRest)

/-- What a step can do to the calls: open one, refuse one, end one, or end all of them together with
the loop. A message either is the response to an open call and ends that one, or it ends none. -/
inductive Change (c d : Client) : List Entry → Prop where
  | quiet (hNext : d.nextId = c.nextId) (hPending : d.pending = c.pending)
      (hPhase : d.phase = .ended ↔ c.phase = .ended) : Change c d []
  | sent (hNext : d.nextId = c.nextId + 1) (hPending : d.pending = c.pending ++ [c.nextId])
      (hPhase : c.phase ≠ .ended ∧ d.phase ≠ .ended) : Change c d [.sent c.nextId]
  | refused (e : CallError) (hNext : d.nextId = c.nextId + 1) (hPending : d.pending = c.pending)
      (hPhase : d.phase = .ended ↔ c.phase = .ended) : Change c d [.refused c.nextId e]
  | expired {id : Nat} (hOpen : id ∈ c.pending) (hNext : d.nextId = c.nextId)
      (hPending : d.pending = c.pending.erase id) (hPhase : d.phase = .ended ↔ c.phase = .ended) :
      Change c d [.brought (.finished id .timedOut)]
  | passed {m : String} (notifications : List Notification)
      (hAnswers : ∀ id ∈ c.pending, answers id m = none) (hNext : d.nextId = c.nextId)
      (hPending : d.pending = c.pending) (hPhase : c.phase ≠ .ended ∧ d.phase ≠ .ended) :
      Change c d (.received m :: (notifications.map .notified).map .brought)
  | answered {m : String} {id : Nat} {r : Response} (hAnswers : answers id m = some r)
      (hOpen : id ∈ c.pending) (hNext : d.nextId = c.nextId)
      (hPending : d.pending = c.pending.erase id) (hPhase : c.phase ≠ .ended ∧ d.phase ≠ .ended) :
      Change c d [.received m, .brought (.finished id (.answered r))]
  | ended (hNext : d.nextId = c.nextId) (hPending : d.pending = []) (hPhase : d.phase = .ended) :
      Change c d (c.cancelAll.map .brought)

variable {answer : Request → Response} {c d : Client}

theorem write_calls (c : Client) (text : String) :
    (c.write text).nextId = c.nextId ∧ (c.write text).pending = c.pending ∧
      (c.phase = .running → (c.write text).phase ≠ .ended) := by
  unfold write
  split
  · exact ⟨rfl, rfl, fun h => by simp [h]⟩
  · exact ⟨rfl, rfl, fun _ => by simp [leave]⟩

theorem call_change {method : String} {params : Option Json} {entries : List Entry}
    (h : c.next? answer (.call method params) = some (d, entries)) : Change c d entries := by
  let numbered : Client := { c with nextId := c.nextId + 1 }
  match hRefusal : numbered.refusal? with
  | some refusal =>
    simp only [numbered] at hRefusal
    simp only [next?, call, enqueue, hRefusal, Option.some.injEq, Prod.mk.injEq] at h
    obtain ⟨rfl, rfl⟩ := h
    exact .refused _ rfl rfl Iff.rfl
  | none =>
    have hPhase : c.phase ≠ .ended := by
      intro hEnded
      unfold refusal? at hRefusal
      split at hRefusal <;> simp_all [numbered]
    simp only [numbered] at hRefusal
    simp only [next?, call, enqueue, hRefusal, Option.some.injEq, Prod.mk.injEq] at h
    obtain ⟨rfl, rfl⟩ := h
    exact .sent rfl rfl ⟨hPhase, hPhase⟩

theorem notify_calls (c : Client) (method : String) (params : Option Json) :
    (c.notify method params).1.nextId = c.nextId ∧ (c.notify method params).1.pending = c.pending ∧
      (c.notify method params).1.phase = c.phase := by
  unfold notify enqueue
  cases c.refusal? <;> exact ⟨rfl, rfl, rfl⟩

/-- A message either answers an open call, and then this call ends, or it leaves the calls alone. -/
theorem dispatch_cases (answer : Request → Response) (c : Client) (m : String) :
    (∃ (notifications : List Notification) (reply : Option String),
      c.dispatch answer m = (c, notifications.map .notified, reply) ∧
        ∀ id ∈ c.pending, answers id m = none) ∨
    ∃ id r, answers id m = some r ∧ id ∈ c.pending ∧
      c.dispatch answer m =
        ({ c with pending := c.pending.erase id }, [.finished id (.answered r)], none) := by
  have hOther (h : ∀ r, Inbound.parse m ≠ .ok (.response r)) (id : Nat) : answers id m = none := by
    unfold answers
    split
    · rename_i r hParse
      exact absurd hParse (h r)
    · rfl
  match hParse : Inbound.parse m with
  | .error e =>
    exact .inl ⟨[], none, by simp [dispatch, hParse], fun id _ => hOther (by simp [hParse]) id⟩
  | .ok (.notification n) =>
    exact .inl ⟨[n], none, by simp [dispatch, hParse], fun id _ => hOther (by simp [hParse]) id⟩
  | .ok (.request r) =>
    exact .inl ⟨[], some (answer r).text, by simp [dispatch, hParse],
      fun id _ => hOther (by simp [hParse]) id⟩
  | .ok (.response r) =>
    match hId : r.id.nat? with
    | none => exact .inl ⟨[], none, by simp [dispatch, hParse, hId], by simp [answers, hParse, hId]⟩
    | some id =>
      by_cases hOpen : id ∈ c.pending
      · exact .inr ⟨id, r, by simp [answers, hParse, hId], hOpen,
          by simp [dispatch, hParse, hId, hOpen]⟩
      · refine .inl ⟨[], none, by simp [dispatch, hParse, hId, hOpen], fun other hPending => ?_⟩
        have hNe : id ≠ other := fun h => hOpen (h ▸ hPending)
        simp [answers, hParse, hId, hNe]

/-- A message that has arrived, whatever the connection was before. -/
theorem handle_change {connection : Frame.Connection} {m : String} {effects : List Effect}
    (hPhase : c.phase = .running)
    (h : ({ c with connection } : Client).handle answer m = (d, effects)) :
    Change c d (.received m :: effects.map .brought) := by
  have hRunning : c.phase ≠ .ended := by simp [hPhase]
  rcases dispatch_cases answer { c with connection } m with
    ⟨notifications, reply, hDispatch, hNone⟩ | ⟨id, r, hAnswers, hOpen, hDispatch⟩
  · cases reply with
    | none =>
      simp only [handle, hDispatch, Prod.mk.injEq] at h
      obtain ⟨rfl, rfl⟩ := h
      exact .passed notifications hNone rfl rfl ⟨hRunning, hRunning⟩
    | some reply =>
      simp only [handle, hDispatch, Prod.mk.injEq] at h
      obtain ⟨rfl, rfl⟩ := h
      obtain ⟨hNext, hPending, hWritten⟩ := write_calls { c with connection } reply
      exact .passed notifications hNone hNext hPending ⟨hRunning, hWritten hPhase⟩
  · simp only [handle, hDispatch, Prod.mk.injEq] at h
    obtain ⟨rfl, rfl⟩ := h
    exact .answered hAnswers hOpen rfl rfl ⟨hRunning, hRunning⟩

theorem receive_change {effects : List Effect} (hPhase : c.phase = .running)
    (hAccepted : c.accepted = []) (hOpen : c.isOpen = true)
    (h : c.receiveStep? answer = some (d, effects)) :
    Change c d (c.inbound?.toList.map .received ++ effects.map .brought) := by
  have hRunning : c.phase ≠ .ended := by simp [hPhase]
  unfold receiveStep? at h
  split at h
  · rename_i m connection hReceive
    have hInbound : c.inbound? = some m := by simp [inbound?, hPhase, hAccepted, hOpen, hReceive]
    simp only [hInbound]
    exact handle_change hPhase (Option.some.inj h)
  all_goals
    rename_i connection hReceive
    have hInbound : c.inbound? = none := by simp [inbound?, hReceive]
    simp only [hInbound]
  · simp only [Option.some.injEq, Prod.mk.injEq] at h
    obtain ⟨rfl, rfl⟩ := h
    exact .quiet rfl rfl Iff.rfl
  · cases h
  · simp only [Option.some.injEq, Prod.mk.injEq] at h
    obtain ⟨rfl, rfl⟩ := h
    exact .quiet rfl rfl (by simp [leave, hPhase])

theorem loop_change {entries : List Entry} (h : c.next? answer .loop = some (d, entries)) :
    Change c d entries := by
  obtain ⟨⟨e, effects⟩, hStep, hEntries⟩ := Option.map_eq_some_iff.mp h
  simp only [Prod.mk.injEq] at hEntries
  obtain ⟨rfl, rfl⟩ := hEntries
  unfold loopStep? at hStep
  split at hStep
  · cases hStep
  · rename_i hPhase
    have hInbound : c.inbound? = none := by simp [inbound?, hPhase]
    simp only [Option.some.injEq, Prod.mk.injEq] at hStep
    obtain ⟨rfl, rfl⟩ := hStep
    simp only [hInbound]
    exact .ended rfl rfl rfl
  · rename_i hPhase
    split at hStep
    · rename_i m rest hAccepted
      have hInbound : c.inbound? = none := by simp [inbound?, hAccepted]
      simp only [Option.some.injEq, Prod.mk.injEq] at hStep
      obtain ⟨rfl, rfl⟩ := hStep
      simp only [hInbound]
      obtain ⟨hNext, hPending, hWritten⟩ := write_calls { c with accepted := rest } m
      exact .quiet hNext hPending
        ⟨fun h => absurd h (hWritten hPhase), fun h => by simp [hPhase] at h⟩
    · rename_i hAccepted
      split at hStep
      · rename_i hOpen
        exact receive_change hPhase hAccepted hOpen hStep
      · rename_i hClosed
        have hInbound : c.inbound? = none := by simp [inbound?, hClosed]
        simp only [Option.some.injEq, Prod.mk.injEq] at hStep
        obtain ⟨rfl, rfl⟩ := hStep
        simp only [hInbound]
        exact .quiet rfl rfl (by simp [leave, hPhase])

/-- Every step is one of the changes. -/
theorem next_change {event : Event} {entries : List Entry}
    (h : c.next? answer event = some (d, entries)) : Change c d entries := by
  cases event with
  | call method params => exact call_change h
  | loop => exact loop_change h
  | notify method params =>
    simp only [next?, Option.some.injEq, Prod.mk.injEq] at h
    obtain ⟨rfl, rfl⟩ := h
    obtain ⟨hNext, hPending, hPhase⟩ := notify_calls c method params
    exact .quiet hNext hPending (by rw [hPhase])
  | expire id =>
    simp only [next?, Option.some.injEq, Prod.mk.injEq] at h
    obtain ⟨rfl, rfl⟩ := h
    by_cases hOpen : id ∈ c.pending
    · have hExpire : c.expire id =
          ({ c with pending := c.pending.erase id }, [.finished id .timedOut]) := by
        simp [expire, hOpen]
      rw [hExpire]
      exact .expired hOpen rfl rfl Iff.rfl
    · have hExpire : c.expire id = (c, []) := by simp [expire, hOpen]
      rw [hExpire]
      exact .quiet rfl rfl Iff.rfl
  | dropSender =>
    simp only [next?, Option.some.injEq, Prod.mk.injEq] at h
    obtain ⟨rfl, rfl⟩ := h
    exact .quiet rfl rfl Iff.rfl
  | abort =>
    simp only [next?, Option.some.injEq, Prod.mk.injEq] at h
    obtain ⟨rfl, rfl⟩ := h
    exact .ended rfl rfl rfl
  | transport change =>
    simp only [next?, Option.some.injEq, Prod.mk.injEq] at h
    obtain ⟨rfl, rfl⟩ := h
    exact .quiet rfl rfl Iff.rfl

/-- What holds of the calls at every moment: each open call has its own number, all numbers given
out are below the next one, and once the loop has ended no call is open. -/
structure Sound (c : Client) : Prop where
  distinct : c.pending.Nodup
  numbered : ∀ id ∈ c.pending, id < c.nextId
  settled : c.phase = .ended → c.pending = []

theorem sound_create (transport : Stream.Transport) : Sound (create transport) :=
  ⟨List.nodup_nil, by simp [create], by simp [create]⟩

theorem Sound.of_sublist (hSound : Sound c) (hNext : c.nextId ≤ d.nextId)
    (hPending : d.pending.Sublist c.pending) (hPhase : d.phase = .ended → c.phase = .ended) :
    Sound d where
  distinct := hSound.distinct.sublist hPending
  numbered id h := Nat.lt_of_lt_of_le (hSound.numbered id (hPending.subset h)) hNext
  settled h := List.sublist_nil.mp (hSound.settled (hPhase h) ▸ hPending)

theorem Change.sound {entries : List Entry} (h : Change c d entries) (hSound : Sound c) :
    Sound d := by
  cases h with
  | quiet hNext hPending hPhase =>
    exact hSound.of_sublist (by omega) (hPending ▸ .refl _) hPhase.mp
  | sent hNext hPending hPhase =>
    have hFresh : c.nextId ∉ c.pending := fun h => Nat.lt_irrefl _ (hSound.numbered _ h)
    refine ⟨?_, fun id h => ?_, fun h => absurd h hPhase.2⟩
    · rw [hPending, List.nodup_append]
      refine ⟨hSound.distinct, by simp, fun id h other hOther hEq => hFresh ?_⟩
      rw [List.mem_singleton] at hOther
      rwa [← hOther, ← hEq]
    · rw [hPending, List.mem_append, List.mem_singleton] at h
      rcases h with h | rfl
      · exact Nat.lt_of_lt_of_le (hSound.numbered id h) (by omega)
      · omega
  | refused e hNext hPending hPhase =>
    exact hSound.of_sublist (by omega) (hPending ▸ .refl _) hPhase.mp
  | expired hOpen hNext hPending hPhase =>
    exact hSound.of_sublist (by omega) (hPending ▸ List.erase_sublist) hPhase.mp
  | passed notifications hAnswers hNext hPending hPhase =>
    exact hSound.of_sublist (by omega) (hPending ▸ .refl _) fun h => absurd h hPhase.2
  | answered hAnswers hOpen hNext hPending hPhase =>
    exact hSound.of_sublist (by omega) (hPending ▸ List.erase_sublist) fun h => absurd h hPhase.2
  | ended hNext hPending hPhase =>
    exact ⟨by simp [hPending], by simp [hPending], fun _ => hPending⟩

/-- A call keeps the numbers distinct, also when it is refused. -/
theorem call_sound {method : String} {params : Option Json} {result : Except CallError Nat}
    (h : c.call method params = (d, result)) (hSound : Sound c) : Sound d := by
  have hStep : ∃ entries,
      c.next? (fun r => .methodNotFound r.id r.method) (.call method params) =
        some (d, entries) := by
    cases result <;> simp [next?, h]
  obtain ⟨entries, hStep⟩ := hStep
  exact (next_change hStep).sound hSound

theorem Run.sound {trace : List Entry} (hRun : Run answer c trace d) (hSound : Sound c) :
    Sound d := by
  induction hRun with
  | start => exact hSound
  | step prior last ih => exact (next_change last).sound ih

/-- After its end the loop receives nothing any more. -/
theorem Change.after_end {entries : List Entry} (h : Change c d entries)
    (hPhase : c.phase = .ended) : d.phase = .ended ∧ messages entries = [] := by
  cases h with
  | quiet hNext hPending hSame => exact ⟨hSame.mpr hPhase, rfl⟩
  | sent hNext hPending hRunning => exact absurd hPhase hRunning.1
  | refused e hNext hPending hSame => exact ⟨hSame.mpr hPhase, rfl⟩
  | expired hOpen hNext hPending hSame => exact ⟨hSame.mpr hPhase, rfl⟩
  | passed notifications hAnswers hNext hPending hRunning => exact absurd hPhase hRunning.1
  | answered hAnswers hOpen hNext hPending hRunning => exact absurd hPhase hRunning.1
  | ended hNext hPending hEnded => exact ⟨hEnded, messages_map_brought _⟩

end Client
end EditorBridge.Rpc
