import EditorBridge.Proofs.Rpc.Run
import Mathlib.Data.List.Nodup
/-!
Answers find their calls. What a run tells of one call has one of four shapes: nothing, a refusal,
the sending alone, or the sending and one end. Each step fits one of them onto the trace, whatever
the peer sends and whatever the other calls do. The end of a call that was neither given up nor cut
off is therefore the first message received after its sending that answers it.
-/
namespace EditorBridge.Rpc

/-- Does an entry tell that the call was sent? -/
def Entry.opens (id : Nat) : Entry → Bool
  | .sent i => i == id
  | _ => false

/-- Does an entry tell that the call has ended? -/
def Entry.ends (id : Nat) : Entry → Bool
  | .refused i _ => i == id
  | .brought (.finished i _) => i == id
  | _ => false

section Entries

variable (id i : Nat)

@[simp] theorem Entry.opens_sent : (Entry.sent i).opens id = (i == id) := rfl

@[simp] theorem Entry.opens_refused (e : CallError) : (Entry.refused i e).opens id = false := rfl

@[simp] theorem Entry.opens_received (m : String) : (Entry.received m).opens id = false := rfl

@[simp] theorem Entry.opens_brought (effect : Effect) :
    (Entry.brought effect).opens id = false := rfl

@[simp] theorem Entry.ends_sent : (Entry.sent i).ends id = false := rfl

@[simp] theorem Entry.ends_refused (e : CallError) : (Entry.refused i e).ends id = (i == id) := rfl

@[simp] theorem Entry.ends_received (m : String) : (Entry.received m).ends id = false := rfl

@[simp] theorem Entry.ends_finished (o : Outcome) :
    (Entry.brought (.finished i o)).ends id = (i == id) := rfl

@[simp] theorem Entry.ends_notified (n : Notification) :
    (Entry.brought (.notified n)).ends id = false := rfl

end Entries

/-- A trace that tells nothing of a call. -/
def Silent (id : Nat) (trace : List Entry) : Prop :=
  ∀ e ∈ trace, e.opens id = false ∧ e.ends id = false

/-- A trace in which no message answers a call. -/
def Unanswered (id : Nat) (trace : List Entry) : Prop :=
  ∀ m ∈ messages trace, answers id m = none

/-- How the call has ended, if an entry tells that. -/
def Entry.outcome? (id : Nat) : Entry → Option Outcome
  | .brought (.finished i o) => if i = id then some o else none
  | _ => none

theorem Entry.outcome?_eq_none {id : Nat} {e : Entry} (h : e.ends id = false) :
    e.outcome? id = none := by
  unfold outcome?
  split
  · rw [if_neg]
    simpa using h
  · rfl

/-- The ends of a call that was sent. -/
def outcomes (id : Nat) (trace : List Entry) : List Outcome :=
  trace.filterMap (Entry.outcome? id)

/-- The messages received since a call was sent. -/
def heard (id : Nat) (trace : List Entry) : List String :=
  messages (trace.dropWhile fun e => !e.opens id)

section Silence

variable {id : Nat} {first second : List Entry}

@[simp] theorem silent_nil : Silent id [] := by simp [Silent]

theorem silent_append : Silent id (first ++ second) ↔ Silent id first ∧ Silent id second :=
  List.forall_mem_append

theorem silent_cons {e : Entry} :
    Silent id (e :: second) ↔ (e.opens id = false ∧ e.ends id = false) ∧ Silent id second :=
  List.forall_mem_cons

theorem unanswered_append :
    Unanswered id (first ++ second) ↔ Unanswered id first ∧ Unanswered id second := by
  rw [Unanswered, messages_append]
  exact List.forall_mem_append

theorem unanswered_received {m : String} :
    Unanswered id (.received m :: second) ↔ answers id m = none ∧ Unanswered id second :=
  List.forall_mem_cons

theorem unanswered_of_messages_eq_nil (h : messages first = []) : Unanswered id first := by
  simp [Unanswered, h]

theorem outcomes_append :
    outcomes id (first ++ second) = outcomes id first ++ outcomes id second :=
  List.filterMap_append ..

@[simp] theorem outcomes_sent (i : Nat) :
    outcomes id (.sent i :: second) = outcomes id second := rfl

@[simp] theorem outcomes_finished (o : Outcome) :
    outcomes id (.brought (.finished id o) :: second) = o :: outcomes id second := by
  simp [outcomes, Entry.outcome?]

theorem Silent.outcomes_eq_nil (h : Silent id first) : outcomes id first = [] :=
  List.filterMap_eq_nil_iff.mpr fun e he => Entry.outcome?_eq_none (h e he).2

theorem Silent.countP_ends (h : Silent id first) : first.countP (·.ends id) = 0 :=
  List.countP_eq_zero.mpr fun e he => by simp [(h e he).2]

/-- What was received before a call was sent is not heard by it. -/
theorem Silent.heard_sent (h : Silent id first) :
    heard id (first ++ .sent id :: second) = messages second := by
  have hBefore : ∀ e ∈ first, (!e.opens id) = true := fun e he => by simp [(h e he).1]
  rw [heard, List.dropWhile_append_of_pos hBefore]
  simp

/-- Cancelling the calls of others tells nothing of a call. -/
theorem silent_cancelled {ids : List Nat} (h : id ∉ ids) :
    Silent id ((ids.map fun i => .finished i .cancelled).map .brought) := by
  intro e he
  simp only [List.map_map, List.mem_map, Function.comp_apply] at he
  obtain ⟨i, hi, rfl⟩ := he
  have hNe : i ≠ id := fun hEq => h (hEq ▸ hi)
  simp [Entry.opens, Entry.ends, hNe]

theorem silent_notified (notifications : List Notification) :
    Silent id ((notifications.map .notified).map .brought) := by
  intro e he
  simp only [List.map_map, List.mem_map, Function.comp_apply] at he
  obtain ⟨n, -, rfl⟩ := he
  exact ⟨rfl, rfl⟩

end Silence

/-- Why a call ended as it did, from what stands between its sending and its end, and after it. -/
inductive Reason (id : Nat) (c : Client) (between after : List Entry) : Outcome → Prop where
  | timedOut (hNone : Unanswered id between) : Reason id c between after .timedOut
  | answered {earlier : List Entry} {m : String} {r : Response}
      (hBetween : between = earlier ++ [.received m]) (hAnswers : answers id m = some r)
      (hNone : Unanswered id earlier) : Reason id c between after (.answered r)
  | cancelled (hNone : Unanswered id between) (hEnded : c.phase = .ended)
      (hAfter : messages after = []) : Reason id c between after .cancelled

/-- What a step means for one call. -/
inductive Turn (id : Nat) (c d : Client) : List Entry → Prop where
  | aside {entries : List Entry} (hSilent : Silent id entries)
      (hPending : id ∈ d.pending ↔ id ∈ c.pending)
      (hNone : id ∈ c.pending → Unanswered id entries) : Turn id c d entries
  | sent (hFresh : id = c.nextId) (hPending : id ∈ d.pending) : Turn id c d [.sent id]
  | refused (e : CallError) (hFresh : id = c.nextId) (hUsed : id < d.nextId)
      (hPending : id ∉ d.pending) : Turn id c d [.refused id e]
  | finished {entries between after : List Entry} {o : Outcome}
      (hEntries : entries = between ++ .brought (.finished id o) :: after) (hOpen : id ∈ c.pending)
      (hPending : id ∉ d.pending) (hBetween : Silent id between) (hAfter : Silent id after)
      (hReason : Reason id d between after o) : Turn id c d entries

/-- What a trace tells of one call. -/
inductive Fate (id : Nat) (c : Client) : List Entry → Prop where
  | unused {trace : List Entry} (hSilent : Silent id trace) (hPending : id ∉ c.pending) :
      Fate id c trace
  | refused {before after : List Entry} (e : CallError) (hBefore : Silent id before)
      (hAfter : Silent id after) (hUsed : id < c.nextId) (hPending : id ∉ c.pending) :
      Fate id c (before ++ .refused id e :: after)
  | waiting {before after : List Entry} (hBefore : Silent id before) (hAfter : Silent id after)
      (hPending : id ∈ c.pending) (hNone : Unanswered id after) :
      Fate id c (before ++ .sent id :: after)
  | finished {before between after : List Entry} {o : Outcome} (hBefore : Silent id before)
      (hBetween : Silent id between) (hAfter : Silent id after) (hUsed : id < c.nextId)
      (hPending : id ∉ c.pending) (hReason : Reason id c between after o) :
      Fate id c (before ++ .sent id :: (between ++ .brought (.finished id o) :: after))

namespace Client

variable {answer : Request → Response} {c d : Client} {entries : List Entry}

/-- What each change of the calls means for one of them. -/
theorem Change.turn (h : Change c d entries) (hSound : Sound c) (id : Nat) :
    Turn id c d entries := by
  cases h with
  | quiet hNext hPending hPhase =>
    exact .aside silent_nil (by rw [hPending]) fun _ => unanswered_of_messages_eq_nil rfl
  | sent hNext hPending hPhase =>
    by_cases hId : id = c.nextId
    · subst hId
      exact .sent rfl (by simp [hPending])
    · refine .aside ?_ (by simp [hPending, hId]) fun _ => unanswered_of_messages_eq_nil rfl
      simp [silent_cons, Ne.symm hId]
  | refused e hNext hPending hPhase =>
    by_cases hId : id = c.nextId
    · subst hId
      exact .refused e rfl (by omega) fun h => Nat.lt_irrefl _ (hSound.numbered _ (hPending ▸ h))
    · refine .aside ?_ (by rw [hPending]) fun _ => unanswered_of_messages_eq_nil rfl
      simp [silent_cons, Ne.symm hId]
  | @expired other hOpen hNext hPending hPhase =>
    by_cases hId : id = other
    · subst hId
      exact .finished (List.nil_append _).symm hOpen
        (by rw [hPending]; exact hSound.distinct.not_mem_erase) silent_nil silent_nil
        (.timedOut (unanswered_of_messages_eq_nil rfl))
    · refine .aside ?_ ?_ fun _ => unanswered_of_messages_eq_nil rfl
      · simp [silent_cons, Ne.symm hId]
      · rw [hPending, List.mem_erase_of_ne hId]
  | passed notifications hAnswers hNext hPending hPhase =>
    refine .aside ?_ (by rw [hPending]) fun hOpen => ?_
    · exact silent_cons.mpr ⟨⟨rfl, rfl⟩, silent_notified notifications⟩
    · exact unanswered_received.mpr ⟨hAnswers id hOpen,
        unanswered_of_messages_eq_nil (messages_map_brought _)⟩
  | @answered m other r hAnswers hOpen hNext hPending hPhase =>
    by_cases hId : id = other
    · subst hId
      have hEntries : ([.received m, .brought (.finished id (.answered r))] : List Entry) =
          [.received m] ++ .brought (.finished id (.answered r)) :: [] := rfl
      exact .finished hEntries hOpen (by rw [hPending]; exact hSound.distinct.not_mem_erase)
        (by simp [silent_cons]) silent_nil
        (.answered (List.nil_append _).symm hAnswers (unanswered_of_messages_eq_nil rfl))
    · refine .aside ?_ ?_ fun _ => ?_
      · simp [silent_cons, Ne.symm hId]
      · rw [hPending, List.mem_erase_of_ne hId]
      · exact unanswered_received.mpr ⟨answers_eq_none_of_ne hAnswers hId,
          unanswered_of_messages_eq_nil rfl⟩
  | ended hNext hPending hPhase =>
    by_cases hOpen : id ∈ c.pending
    · obtain ⟨before, after, hSplit⟩ := List.append_of_mem hOpen
      have hDistinct := hSound.distinct
      rw [hSplit, List.nodup_middle, List.nodup_cons, List.mem_append, not_or] at hDistinct
      refine .finished (o := .cancelled) ?_ hOpen (by simp [hPending])
        (silent_cancelled hDistinct.1.1) (silent_cancelled hDistinct.1.2)
        (.cancelled (unanswered_of_messages_eq_nil (messages_map_brought _)) hPhase
          (messages_map_brought _))
      simp [cancelAll, hSplit]
    · exact .aside (silent_cancelled hOpen) (by simp [hPending, hOpen])
        fun _ => unanswered_of_messages_eq_nil (messages_map_brought _)

theorem Change.nextId_le (h : Change c d entries) : c.nextId ≤ d.nextId := by
  cases h <;> omega

end Client

/-- Messages that answer nothing change no reason. -/
theorem Reason.prepend {id : Nat} {c : Client} {first between after : List Entry} {o : Outcome}
    (h : Reason id c between after o) (hNone : Unanswered id first) :
    Reason id c (first ++ between) after o := by
  cases h with
  | timedOut hRest => exact .timedOut (unanswered_append.mpr ⟨hNone, hRest⟩)
  | @answered earlier m r hBetween hAnswers hRest =>
    exact .answered (by rw [hBetween, List.append_assoc]) hAnswers
      (unanswered_append.mpr ⟨hNone, hRest⟩)
  | cancelled hRest hEnded hAfter =>
    exact .cancelled (unanswered_append.mpr ⟨hNone, hRest⟩) hEnded hAfter

/-- A reason stays one while the client goes on. -/
theorem Reason.step {id : Nat} {c d : Client} {between after entries : List Entry} {o : Outcome}
    (h : Reason id c between after o) (hChange : Client.Change c d entries) :
    Reason id d between (after ++ entries) o := by
  cases h with
  | timedOut hNone => exact .timedOut hNone
  | answered hBetween hAnswers hNone => exact .answered hBetween hAnswers hNone
  | cancelled hNone hEnded hAfter =>
    obtain ⟨hStill, hNothing⟩ := hChange.after_end hEnded
    exact .cancelled hNone hStill (by rw [messages_append, hAfter, hNothing, List.append_nil])

/-- A step fits onto the trace of a call. -/
theorem Fate.step {id : Nat} {c d : Client} {trace entries : List Entry} (h : Fate id c trace)
    (hChange : Client.Change c d entries) (hSound : c.Sound) : Fate id d (trace ++ entries) := by
  have hTurn := hChange.turn hSound id
  have hNext := hChange.nextId_le
  cases h with
  | unused hSilent hPending =>
    cases hTurn with
    | aside hRest hSame hNone =>
      exact .unused (silent_append.mpr ⟨hSilent, hRest⟩) (by rwa [hSame])
    | sent hFresh hOpen => exact .waiting hSilent silent_nil hOpen (by simp [Unanswered])
    | refused e hFresh hUsed hOpen => exact .refused e hSilent silent_nil hUsed hOpen
    | finished hEntries hOpen => exact absurd hOpen hPending
  | refused e hBefore hAfter hUsed hPending =>
    rw [List.append_assoc]
    cases hTurn with
    | aside hRest hSame hNone =>
      exact .refused e hBefore (silent_append.mpr ⟨hAfter, hRest⟩) (by omega) (by rwa [hSame])
    | sent hFresh => omega
    | refused _ hFresh => omega
    | finished hEntries hOpen => exact absurd hOpen hPending
  | waiting hBefore hAfter hPending hNone =>
    rw [List.append_assoc]
    cases hTurn with
    | aside hRest hSame hUnanswered =>
      exact .waiting hBefore (silent_append.mpr ⟨hAfter, hRest⟩) (by rwa [hSame])
        (unanswered_append.mpr ⟨hNone, hUnanswered hPending⟩)
    | sent hFresh =>
      -- The number of an open call is below the next one, so it is not given again.
      have hUsed := hSound.numbered id hPending
      omega
    | refused e hFresh =>
      have hUsed := hSound.numbered id hPending
      omega
    | @finished _ between later o hEntries hOpen hClosed hBetween hLater hReason =>
      have hUsed := hSound.numbered id hPending
      subst hEntries
      rw [List.cons_append, ← List.append_assoc]
      exact .finished hBefore (silent_append.mpr ⟨hAfter, hBetween⟩) hLater (by omega) hClosed
        (hReason.prepend hNone)
  | finished hBefore hBetween hAfter hUsed hPending hReason =>
    rw [List.append_assoc, List.cons_append, List.append_assoc, List.cons_append]
    cases hTurn with
    | aside hRest hSame hNone =>
      exact .finished hBefore hBetween (silent_append.mpr ⟨hAfter, hRest⟩) (by omega)
        (by rwa [hSame]) (hReason.step hChange)
    | sent hFresh => omega
    | refused _ hFresh => omega
    | finished hEntries hOpen => exact absurd hOpen hPending

/-- Every run tells of every call what one of the shapes says. -/
theorem Client.Run.fate {answer : Request → Response} {transport : Stream.Transport}
    {trace : List Entry} {c : Client} (hRun : Client.Run answer (.create transport) trace c)
    (id : Nat) : Fate id c trace := by
  induction hRun with
  | start => exact .unused silent_nil (by simp [Client.create])
  | step prior last ih =>
    exact ih.step (Client.next_change last) (prior.sound (Client.sound_create transport))

section Shapes

variable {id : Nat} {c : Client} {trace : List Entry}

/-- A call ends at most once, a refusal counted. -/
theorem Fate.countP_ends_le (h : Fate id c trace) : trace.countP (·.ends id) ≤ 1 := by
  cases h with
  | unused hSilent => simp [hSilent.countP_ends]
  | refused e hBefore hAfter =>
    simp [List.countP_append, hBefore.countP_ends, hAfter.countP_ends]
  | waiting hBefore hAfter =>
    simp [List.countP_append, hBefore.countP_ends, hAfter.countP_ends]
  | finished hBefore hBetween hAfter =>
    simp [List.countP_append, hBefore.countP_ends, hBetween.countP_ends,
      hAfter.countP_ends]

/-- Unless it was given up, a call that was sent ends as the first message heard that answers it
says, or else with the loop, or else it is open. -/
theorem Fate.outcomes_eq (h : Fate id c trace) (hSound : c.Sound) (hSent : .sent id ∈ trace)
    (hTime : .timedOut ∉ outcomes id trace) :
    outcomes id trace =
      match (heard id trace).findSome? (answers id) with
      | some r => [.answered r]
      | none => if c.phase = .ended then [.cancelled] else [] := by
  have hNone (entries : List Entry) (h : Unanswered id entries) :
      (messages entries).findSome? (answers id) = none := List.findSome?_eq_none_iff.mpr h
  cases h with
  | unused hSilent => exact absurd (hSilent _ hSent).1 (by simp)
  | refused e hBefore hAfter =>
    simp only [List.mem_append, List.mem_cons, reduceCtorEq, false_or] at hSent
    rcases hSent with h | h
    · exact absurd (hBefore _ h).1 (by simp)
    · exact absurd (hAfter _ h).1 (by simp)
  | waiting hBefore hAfter hPending hUnanswered =>
    have hPhase : c.phase ≠ .ended := fun h => by simp [hSound.settled h] at hPending
    rw [hBefore.heard_sent, hNone _ hUnanswered]
    simp [outcomes_append, hBefore.outcomes_eq_nil, hAfter.outcomes_eq_nil, hPhase]
  | finished hBefore hBetween hAfter hUsed hPending hReason =>
    rename_i before between after o
    have hOutcomes : outcomes id (before ++ .sent id :: (between ++
        .brought (.finished id o) :: after)) = [o] := by
      simp [outcomes_append, hBefore.outcomes_eq_nil, hBetween.outcomes_eq_nil,
        hAfter.outcomes_eq_nil]
    rw [hOutcomes] at hTime ⊢
    rw [hBefore.heard_sent, messages_append, messages_brought, List.findSome?_append]
    cases hReason with
    | timedOut => simp at hTime
    | answered hEarlier hAnswers hUnanswered =>
      rw [hEarlier, messages_append, List.findSome?_append, hNone _ hUnanswered]
      simp [hAnswers]
    | cancelled hUnanswered hEnded hRest =>
      rw [hNone _ hUnanswered, hRest]
      simp [hEnded]

/-- The end of a call that was neither given up nor cut off is the first message received since its
sending that answers it, and it comes right behind that message. -/
theorem Fate.answered {o : Outcome} (h : Fate id c trace)
    (hMem : .brought (.finished id o) ∈ trace) (hTime : o ≠ .timedOut) (hCut : o ≠ .cancelled) :
    ∃ before between m r after, o = .answered r ∧
      trace = before ++ .sent id ::
        (between ++ .received m :: .brought (.finished id (.answered r)) :: after) ∧
      answers id m = some r ∧ Unanswered id between ∧
      Silent id before ∧ Silent id between ∧ Silent id after := by
  have hEnd {entries : List Entry} (hSilent : Silent id entries)
      (h : .brought (.finished id o) ∈ entries) : False := by
    simpa using (hSilent _ h).2
  cases h with
  | unused hSilent => exact (hEnd hSilent hMem).elim
  | refused e hBefore hAfter =>
    simp only [List.mem_append, List.mem_cons, reduceCtorEq, false_or] at hMem
    exact (hMem.elim (hEnd hBefore) (hEnd hAfter)).elim
  | waiting hBefore hAfter =>
    simp only [List.mem_append, List.mem_cons, reduceCtorEq, false_or] at hMem
    exact (hMem.elim (hEnd hBefore) (hEnd hAfter)).elim
  | @finished before between after o' hBefore hBetween hAfter hUsed hPending hReason =>
    have hSame : o = o' := by
      simp only [List.mem_append, List.mem_cons, reduceCtorEq, false_or, Entry.brought.injEq,
        Effect.finished.injEq, true_and] at hMem
      rcases hMem with h | h | h | h
      · exact (hEnd hBefore h).elim
      · exact (hEnd hBetween h).elim
      · exact h
      · exact (hEnd hAfter h).elim
    subst hSame
    cases hReason with
    | timedOut => exact absurd rfl hTime
    | cancelled => exact absurd rfl hCut
    | @answered earlier m r hEarlier hAnswers hUnanswered =>
      rw [hEarlier, silent_append] at hBetween
      refine ⟨before, earlier, m, r, after, rfl, ?_, hAnswers, hUnanswered, hBefore, hBetween.1,
        hAfter⟩
      rw [hEarlier, List.append_assoc, List.cons_append, List.nil_append]

end Shapes

/-- Where all answers agree, the first one does not depend on the order. -/
theorem findSome?_eq_of_perm {texts texts' : List String} {f : String → Option Response}
    (hPerm : texts.Perm texts')
    (hAgree : ∀ m ∈ texts, ∀ m' ∈ texts, ∀ r r', f m = some r → f m' = some r' → r = r') :
    texts.findSome? f = texts'.findSome? f := by
  cases h : texts.findSome? f with
  | none =>
    rw [List.findSome?_eq_none_iff] at h
    exact (List.findSome?_eq_none_iff.mpr fun m hm => h m (hPerm.mem_iff.mpr hm)).symm
  | some r =>
    obtain ⟨m, hm, hr⟩ := List.exists_of_findSome?_eq_some h
    cases h' : texts'.findSome? f with
    | none =>
      rw [List.findSome?_eq_none_iff] at h'
      rw [h' m (hPerm.mem_iff.mp hm)] at hr
      cases hr
    | some r' =>
      obtain ⟨m', hm', hr'⟩ := List.exists_of_findSome?_eq_some h'
      rw [hAgree m hm m' (hPerm.mem_iff.mpr hm') r r' hr hr']

/-- The effect of a message on the open calls: the one that it answers ends, and if it answers none
of them they stay as they are and none ends. -/
theorem Client.received_effect {answer : Request → Response} {c d : Client} {event : Event}
    {entries : List Entry} {m : String} (h : c.next? answer event = some (d, entries))
    (hReceived : .received m ∈ entries) :
    ((∀ id ∈ c.pending, answers id m = none) ∧ d.pending = c.pending ∧
      ∀ id, entries.countP (·.ends id) = 0) ∨
    ∃ id r, answers id m = some r ∧ id ∈ c.pending ∧ d.pending = c.pending.erase id ∧
      entries = [.received m, .brought (.finished id (.answered r))] := by
  cases Client.next_change h with
  | quiet | sent | refused | expired => simp at hReceived
  | ended => simp [Client.cancelAll] at hReceived
  | @passed m' notifications hAnswers hNext hPending hPhase =>
    have hSame : m = m' := by simpa using hReceived
    subst hSame
    refine .inl ⟨hAnswers, hPending, fun id => ?_⟩
    exact Silent.countP_ends (silent_cons.mpr ⟨⟨rfl, rfl⟩, silent_notified notifications⟩)
  | @answered m' id r hAnswers hOpen hNext hPending hPhase =>
    have hSame : m = m' := by simpa using hReceived
    subst hSame
    exact .inr ⟨id, r, hAnswers, hOpen, hPending, rfl⟩

/-- Answers find their calls, in every run. A call ends at most once. If it ends with a result, a
value that cannot be read or an error of the server, then through the first message since its
sending that is a response with its number. Every other message leaves all open calls alone. And
where no call is given up, the order of the messages since the sending does not matter to the end of
a call, as long as two messages that answer it both say the same. -/
theorem answers_find_their_calls {answer : Request → Response} {transport : Stream.Transport}
    {trace : List Entry} {c : Client} (hRun : Client.Run answer (.create transport) trace c) :
    (∀ id, trace.countP (·.ends id) ≤ 1) ∧
    (∀ (α : Type) (method : String) (read : Document → Decoded α) (id : Nat) (o : Outcome),
      .brought (.finished id o) ∈ trace → o.result method read ≠ .error (.timeout method) →
      o.result method read ≠ .error .cancelled →
      ∃ before between m r after, o = .answered r ∧
        trace = before ++ .sent id ::
          (between ++ .received m :: .brought (.finished id (.answered r)) :: after) ∧
        answers id m = some r ∧ Unanswered id between ∧
        Silent id before ∧ Silent id between ∧ Silent id after) ∧
    (∀ d event entries m, c.next? answer event = some (d, entries) → .received m ∈ entries →
      ((∀ id ∈ c.pending, answers id m = none) ∧ d.pending = c.pending ∧
        ∀ id, entries.countP (·.ends id) = 0) ∨
      ∃ id r, answers id m = some r ∧ id ∈ c.pending ∧ d.pending = c.pending.erase id ∧
        entries = [.received m, .brought (.finished id (.answered r))]) ∧
    (∀ answer' transport' trace' c', Client.Run answer' (.create transport') trace' c' →
      ∀ id, .sent id ∈ trace → .sent id ∈ trace' →
      .timedOut ∉ outcomes id trace → .timedOut ∉ outcomes id trace' →
      (heard id trace).Perm (heard id trace') →
      (∀ m ∈ heard id trace, ∀ m' ∈ heard id trace, ∀ r r',
        answers id m = some r → answers id m' = some r' → r = r') →
      (c.phase = .ended ↔ c'.phase = .ended) → outcomes id trace = outcomes id trace') := by
  refine ⟨fun id => (hRun.fate id).countP_ends_le, ?_, ?_, ?_⟩
  · intro α method read id o hMem hTime hCut
    refine (hRun.fate id).answered hMem ?_ ?_
    · rintro rfl
      exact hTime rfl
    · rintro rfl
      exact hCut rfl
  · intro d event entries m hStep hReceived
    exact Client.received_effect hStep hReceived
  · intro answer' transport' trace' c' hRun' id hSent hSent' hTime hTime' hPerm hAgree hPhase
    have hSound := hRun.sound (Client.sound_create transport)
    have hSound' := hRun'.sound (Client.sound_create transport')
    rw [(hRun.fate id).outcomes_eq hSound hSent hTime,
      (hRun'.fate id).outcomes_eq hSound' hSent' hTime', findSome?_eq_of_perm hPerm hAgree]
    simp only [hPhase]

/-- Two calls are sent, and the peer answers one with each message. -/
def twoCalls (replies : List String) : Option (List Entry × Client) :=
  (Client.create .fresh).follow? (fun r => .methodNotFound r.id r.method)
    ([.call "first" none, .call "second" none, .loop, .loop,
      .transport (·.deliver (Utf8.encode (replies.flatMap fun m => (Frame.encode m).toList)))] ++
      List.replicate (replies.length + 1) .loop)

/-- An answer to the first of two calls, and one to the second. -/
def firstAnswer : String := "\x7b\"jsonrpc\":\"2.0\",\"id\":1,\"result\":4\x7d"

def secondAnswer : String := "\x7b\"jsonrpc\":\"2.0\",\"id\":2,\"result\":5\x7d"

/-- What a run shows of call 1: the messages heard, whether it was sent, which of its ends are
answers, and whether the loop goes on. -/
def shown (run : List Entry × Client) : List String × Bool × List Bool × Bool :=
  (heard 1 run.1, run.1.any (·.opens 1), (outcomes 1 run.1).map (· matches .answered _),
    run.2.phase == .running)

theorem twoCalls_shown :
    (twoCalls [secondAnswer, firstAnswer]).map shown =
      some ([secondAnswer, firstAnswer], true, [true], true) ∧
    (twoCalls [firstAnswer, secondAnswer]).map shown =
      some ([firstAnswer, secondAnswer], true, [true], true) := by
  decide +kernel

theorem outcomes_of_swapped_answers :
    ∃ trace c trace' c',
      twoCalls [secondAnswer, firstAnswer] = some (trace, c) ∧
      twoCalls [firstAnswer, secondAnswer] = some (trace', c') ∧
      heard 1 trace = [secondAnswer, firstAnswer] ∧ heard 1 trace' = [firstAnswer, secondAnswer] ∧
      (outcomes 1 trace).length = 1 ∧ outcomes 1 trace = outcomes 1 trace' := by
  obtain ⟨⟨trace, c⟩, hEval, hShown⟩ := Option.map_eq_some_iff.mp twoCalls_shown.1
  obtain ⟨⟨trace', c'⟩, hEval', hShown'⟩ := Option.map_eq_some_iff.mp twoCalls_shown.2
  simp only [shown, Prod.mk.injEq, beq_iff_eq] at hShown hShown'
  obtain ⟨hHeard, hSent, hAnswered, hPhase⟩ := hShown
  obtain ⟨hHeard', hSent', hAnswered', hPhase'⟩ := hShown'
  have hLength := congrArg List.length hAnswered
  refine ⟨trace, c, trace', c', hEval, hEval', hHeard, hHeard', by simpa using hLength, ?_⟩
  have hOpened {trace : List Entry} (h : trace.any (·.opens 1) = true) : .sent 1 ∈ trace := by
    obtain ⟨e, hMem, hOpens⟩ := List.any_eq_true.mp h
    unfold Entry.opens at hOpens
    split at hOpens
    · simp only [beq_iff_eq] at hOpens
      exact hOpens ▸ hMem
    · cases hOpens
  have hTime {ends : List Outcome} (h : ends.map (· matches .answered _) = [true]) :
      .timedOut ∉ ends := by
    intro hMem
    have hFalse : false ∈ ends.map (· matches .answered _) := List.mem_map.mpr ⟨_, hMem, rfl⟩
    simp [h] at hFalse
  have hOther : answers 1 secondAnswer = none :=
    Option.not_isSome_iff_eq_none.mp (by decide +kernel)
  refine (answers_find_their_calls (Client.run_of_follow? hEval)).2.2.2 _ _ _ _
    (Client.run_of_follow? hEval') 1 (hOpened hSent) (hOpened hSent') (hTime hAnswered)
    (hTime hAnswered') ?_ ?_ (by simp [hPhase, hPhase'])
  · rw [hHeard, hHeard']
    exact .swap ..
  · rw [hHeard]
    simp only [List.mem_cons, List.not_mem_nil, or_false]
    rintro m (rfl | rfl) m' (rfl | rfl) r r' h h' <;> simp_all

end EditorBridge.Rpc
