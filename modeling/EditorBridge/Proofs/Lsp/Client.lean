import EditorBridge.Lsp.Client
import EditorBridge.Proofs.Rpc.Sending
/-!
What the functions of a language client do to it, as far as a session cares: which message they
send, whether the client is initialized and open afterwards, and which ends of calls it keeps. Most
of what happens to a client sends nothing (`Calm`), and a client that was closed sends nothing more.
-/
namespace EditorBridge.Lsp.Client

/-- A call that its caller still has to take: it is open, or its end is kept. -/
def Holds (c : Client) (id : Nat) : Prop := id ∈ c.rpc.pending ∨ ∃ e ∈ c.ended, e.id = id

/-- An answer that is kept was kept before, or its call was open and the response is `heard` now. -/
def Hears (heard : Nat → Option Rpc.Response) (c d : Client) : Prop :=
  ∀ e ∈ d.ended, ∀ r, e.outcome = .answered r →
    e ∈ c.ended ∨ e.id ∈ c.rpc.pending ∧ heard e.id = some r

/-- Every call that is open, or whose end is kept, has a number that was given out. -/
structure Numbered (c : Client) : Prop where
  rpc : c.rpc.Sound
  ended : ∀ e ∈ c.ended, e.id < c.rpc.nextId

/-- What can happen to a client without its caller. -/
structure Calm (heard : Nat → Option Rpc.Response) (c d : Client) : Prop where
  flow : c.rpc.Flow d.rpc []
  initialized : d.initialized = c.initialized
  isOpen : d.rpc.isOpen = c.rpc.isOpen
  nextId : d.rpc.nextId = c.rpc.nextId
  pending : d.rpc.pending ⊆ c.rpc.pending
  hears : Hears heard c d
  holds : ∀ id, c.Holds id → d.Holds id
  numbered : c.Numbered → d.Numbered

/-- A client that takes no more messages. -/
structure Closed (c d : Client) : Prop where
  flow : c.rpc.Flow d.rpc []
  outbox : d.rpc.outbox = c.rpc.outbox
  initialized : d.initialized = true → c.initialized = true
  isOpen : d.rpc.isOpen = false
  ended : ∀ e ∈ d.ended, ∀ r, e.outcome = .answered r → e ∈ c.ended
  numbered : c.Numbered → d.Numbered

/-- Nothing was sent after all. -/
structure Unsaid (c d : Client) : Prop where
  accepted : d.rpc.accepted = c.rpc.accepted
  outbox : d.rpc.outbox = c.rpc.outbox
  phase : d.rpc.phase = c.rpc.phase
  initialized : d.initialized = true → c.initialized = true
  ended : d.ended ⊆ c.ended
  numbered : c.Numbered → d.Numbered

variable {c d e : Client} {heard : Nat → Option Rpc.Response}

theorem Unsaid.refl (c : Client) : Unsaid c c := ⟨rfl, rfl, rfl, id, List.Subset.refl _, id⟩

theorem Unsaid.trans (hFirst : Unsaid c d) (hSecond : Unsaid d e) : Unsaid c e where
  accepted := hSecond.accepted.trans hFirst.accepted
  outbox := hSecond.outbox.trans hFirst.outbox
  phase := hSecond.phase.trans hFirst.phase
  initialized := hFirst.initialized ∘ hSecond.initialized
  ended := List.Subset.trans hSecond.ended hFirst.ended
  numbered := hSecond.numbered ∘ hFirst.numbered

theorem Unsaid.flow (h : Unsaid c d) : c.rpc.Flow d.rpc [] :=
  .took [] (by simp [h.accepted]) h.phase

theorem hears_of_subset (h : d.ended ⊆ c.ended) : Hears heard c d :=
  fun _ hMem _ _ => .inl (h hMem)

theorem calm_refl (c : Client) : Calm heard c c :=
  ⟨.refl _, rfl, rfl, rfl, List.Subset.refl _, hears_of_subset (List.Subset.refl _), fun _ => id,
    id⟩

/-- What becomes of the ends of calls when a client takes over what its connection did. -/
theorem mem_follow_ended {rpc : Rpc.Client} {effects : List Rpc.Effect} {ended : Ended} :
    ended ∈ (c.follow rpc effects).1.ended ↔
      ended ∈ c.ended ∨ .finished ended.id ended.outcome ∈ effects := by
  simp only [follow, List.mem_append, List.mem_filterMap]
  refine or_congr_right ⟨?_, fun h => ⟨_, h, rfl⟩⟩
  rintro ⟨effect, hEffect, hSome⟩
  cases effect with
  | finished id outcome => cases hSome; exact hEffect
  | notified n => cases hSome

theorem numbered_create (transport : Stream.Transport) : (create transport).Numbered :=
  ⟨Rpc.Client.sound_create transport, nofun⟩

/-- Only the ends of calls that were open come to those that are kept. -/
theorem Numbered.follow {rpc : Rpc.Client} {effects : List Rpc.Effect} (h : c.Numbered)
    (hSound : rpc.Sound) (hNext : c.rpc.nextId ≤ rpc.nextId)
    (hEffects : ∀ id outcome, .finished id outcome ∈ effects → id ∈ c.rpc.pending) :
    (c.follow rpc effects).1.Numbered where
  rpc := hSound
  ended kept hKept := by
    rcases mem_follow_ended.mp hKept with hKept | hFinished
    · exact Nat.lt_of_lt_of_le (h.ended kept hKept) hNext
    · exact Nat.lt_of_lt_of_le (h.rpc.numbered _ (hEffects _ _ hFinished)) hNext

/-- A call stays held when it stays open or its end is told. -/
theorem holds_follow {rpc : Rpc.Client} {effects : List Rpc.Effect} {id : Nat}
    (h : id ∈ c.rpc.pending → id ∈ rpc.pending ∨ ∃ outcome, .finished id outcome ∈ effects)
    (hHolds : c.Holds id) : (c.follow rpc effects).1.Holds id := by
  rcases hHolds with hOpen | ⟨kept, hKept, hId⟩
  · rcases h hOpen with hOpen | ⟨outcome, hFinished⟩
    · exact .inl hOpen
    · exact .inr ⟨⟨id, outcome⟩, mem_follow_ended.mpr (.inr hFinished), rfl⟩
  · exact .inr ⟨kept, mem_follow_ended.mpr (.inl hKept), hId⟩

theorem calm_onConnection (c : Client) (change : Stream.Transport → Stream.Transport) :
    Calm heard c (c.onConnection (·.onto change)) :=
  ⟨.took [] (by simp [onConnection]) rfl, rfl, rfl, rfl, List.Subset.refl _,
    hears_of_subset (List.Subset.refl _), fun _ => id,
    fun h => ⟨h.rpc.of_sublist (Nat.le_refl _) (.refl _) id, h.ended⟩⟩

/-- The time for an open call is over. -/
theorem expire_of_mem {id : Nat} (h : id ∈ c.rpc.pending) :
    c.expire id = (c.follow { c.rpc with pending := c.rpc.pending.erase id }
      [.finished id .timedOut]).1 := by
  simp [expire, Rpc.Client.expire, h]

theorem calm_expire (c : Client) (id : Nat) : Calm heard c (c.expire id) := by
  by_cases hOpen : id ∈ c.rpc.pending
  · rw [expire_of_mem hOpen]
    refine ⟨.took [] (by simp [follow]) rfl, rfl, rfl, rfl, List.erase_subset,
      fun kept hKept r hAnswered => ?_, fun other => holds_follow fun hOther => ?_,
      fun h => h.follow (h.rpc.of_sublist (Nat.le_refl _) List.erase_sublist fun hEnded => hEnded)
        (Nat.le_refl _) fun other outcome hFinished => ?_⟩
    · rcases mem_follow_ended.mp hKept with hKept | hFinished
      · exact .inl hKept
      · simp [hAnswered] at hFinished
    · by_cases hSame : other = id
      · exact .inr ⟨.timedOut, by simp [hSame]⟩
      · exact .inl ((List.mem_erase_of_ne hSame).mpr hOther)
    · obtain ⟨rfl, -⟩ := Rpc.Effect.finished.inj (List.mem_singleton.mp hFinished)
      exact hOpen
  · have hSame : c.expire id = c := by simp [expire, Rpc.Client.expire, follow, hOpen]
    rw [hSame]
    exact calm_refl c

theorem expire_outbox (c : Client) (id : Nat) : (c.expire id).rpc.outbox = c.rpc.outbox := by
  simp only [expire, Rpc.Client.expire]
  split <;> rfl

/-- Only calls that are open are ended. -/
theorem change_finished {c d : Rpc.Client} {entries : List Rpc.Entry}
    (h : Rpc.Client.Change c d entries) {id : Nat} {outcome : Rpc.Outcome}
    (hFinished : .brought (.finished id outcome) ∈ entries) : id ∈ c.pending := by
  cases h with
  | quiet | sent | refused => simp at hFinished
  | expired hOpen | answered _ hOpen => simp_all
  | passed notifications => simp at hFinished
  | ended =>
    simp only [Rpc.Client.cancelAll, List.map_map, List.mem_map, Function.comp_apply,
      Rpc.Entry.brought.injEq, Rpc.Effect.finished.injEq] at hFinished
    obtain ⟨other, hOpen, rfl, -⟩ := hFinished
    exact hOpen

theorem loop_numbered {answer : Rpc.Request → Rpc.Response} {c d : Rpc.Client}
    {effects : List Rpc.Effect} (h : c.loopStep? answer = some (d, effects)) :
    (c.Sound → d.Sound) ∧ ∀ id outcome, .finished id outcome ∈ effects → id ∈ c.pending := by
  have hStep : c.next? answer .loop =
      some (d, c.inbound?.toList.map Rpc.Entry.received ++ effects.map .brought) := by
    simp [Rpc.Client.next?, h]
  have hChange := Rpc.Client.next_change hStep
  refine ⟨hChange.sound, fun id outcome hFinished => ?_⟩
  have hEntry : Rpc.Entry.brought (.finished id outcome) ∈ effects.map .brought :=
    List.mem_map_of_mem hFinished
  exact change_finished hChange (List.mem_append_right _ hEntry)

/-- A step of the loop opens no call; it ends one by the response it receives, or all of them. -/
theorem loop_calls {answer : Rpc.Request → Rpc.Response} {c d : Rpc.Client}
    {effects : List Rpc.Effect} (h : c.loopStep? answer = some (d, effects)) :
    d.nextId = c.nextId ∧
      (∀ id r, .finished id (.answered r) ∈ effects →
        id ∈ c.pending ∧ c.inbound?.bind (Rpc.answers id) = some r) ∧
      (∀ id ∈ c.pending, id ∈ d.pending ∨ ∃ outcome, .finished id outcome ∈ effects) ∧
      d.pending ⊆ c.pending := by
  generalize hEntries : c.inbound?.toList.map Rpc.Entry.received ++ effects.map .brought = entries
  have hStep : c.next? answer .loop = some (d, entries) := by simp [Rpc.Client.next?, h, hEntries]
  have hChange : Rpc.Client.Change c d entries := Rpc.Client.next_change hStep
  -- An effect is an entry that was brought; a message among the entries is the inbound one.
  have hBrought {effect : Rpc.Effect} :
      effect ∈ effects ↔ Rpc.Entry.brought effect ∈ entries := by simp [← hEntries]
  have hReceived {m : String} : Rpc.Entry.received m ∈ entries → c.inbound? = some m := by
    simp [← hEntries]
  cases hChange with
  | quiet hNext hPending hPhase =>
    exact ⟨hNext, fun id r hEffect => by simp [hBrought] at hEffect,
      fun id hId => .inl (hPending ▸ hId), fun id hId => hPending ▸ hId⟩
  | sent hNext hPending hPhase =>
    have hSent : Rpc.Entry.sent c.nextId ∈
        c.inbound?.toList.map Rpc.Entry.received ++ effects.map .brought := by simp [hEntries]
    simp at hSent
  | refused error hNext hPending hPhase =>
    have hRefused : Rpc.Entry.refused c.nextId error ∈
        c.inbound?.toList.map Rpc.Entry.received ++ effects.map .brought := by simp [hEntries]
    simp at hRefused
  | @expired id hOpen hNext hPending hPhase =>
    refine ⟨hNext, fun other r hEffect => by simp [hBrought] at hEffect, fun other hOther => ?_,
      hPending ▸ List.erase_subset⟩
    by_cases hSame : other = id
    · exact .inr ⟨.timedOut, by simp [hBrought, hSame]⟩
    · exact .inl (hPending ▸ (List.mem_erase_of_ne hSame).mpr hOther)
  | passed notifications hAnswers hNext hPending hPhase =>
    exact ⟨hNext, fun id r hEffect => by simp [hBrought] at hEffect,
      fun id hId => .inl (hPending ▸ hId), fun id hId => hPending ▸ hId⟩
  | @answered m id response hAnswers hOpen hNext hPending hPhase =>
    have hInbound : c.inbound? = some m := hReceived (by simp)
    refine ⟨hNext, fun other r hEffect => ?_, fun other hOther => ?_, hPending ▸ List.erase_subset⟩
    · simp only [hBrought, List.mem_cons, reduceCtorEq, Rpc.Entry.brought.injEq,
        Rpc.Effect.finished.injEq, Rpc.Outcome.answered.injEq, List.not_mem_nil, or_false,
        false_or] at hEffect
      obtain ⟨rfl, rfl⟩ := hEffect
      exact ⟨hOpen, by simp [hInbound, hAnswers]⟩
    · by_cases hSame : other = id
      · exact .inr ⟨.answered response, by simp [hBrought, hSame]⟩
      · exact .inl (hPending ▸ (List.mem_erase_of_ne hSame).mpr hOther)
  | ended hNext hPending hPhase =>
    refine ⟨hNext, fun id r hEffect => ?_, fun id hId => .inr ⟨.cancelled, ?_⟩,
      hPending ▸ List.nil_subset _⟩
    · simp [hBrought, Rpc.Client.cancelAll] at hEffect
    · simpa [hBrought, Rpc.Client.cancelAll] using hId

theorem calm_loop {answer : Rpc.Request → Rpc.Response} {notifications : List Rpc.Notification}
    (h : c.loopStep? answer = some (d, notifications)) :
    Calm (fun id => c.rpc.inbound?.bind (Rpc.answers id)) c d := by
  obtain ⟨⟨rpc, effects⟩, hLoop, hFollow⟩ := Option.map_eq_some_iff.mp h
  obtain rfl : (c.follow rpc effects).1 = d := congrArg Prod.fst hFollow
  obtain ⟨hMove, hOpen⟩ := Rpc.Client.loop_move hLoop
  obtain ⟨hNext, hAnswered, hHeld, hPending⟩ := loop_calls hLoop
  obtain ⟨hSound, hFinished⟩ := loop_numbered hLoop
  refine ⟨hMove.flow, rfl, hOpen, hNext, hPending, fun kept hKept r hOutcome => ?_,
    fun id => holds_follow (hHeld id),
    fun h => h.follow (hSound h.rpc) (Nat.le_of_eq hNext.symm) hFinished⟩
  rcases mem_follow_ended.mp hKept with hKept | hFinished
  · exact .inl hKept
  · exact .inr (hAnswered _ r (hOutcome ▸ hFinished))

/-- A client that was given up is closed, also when nothing came of the last message before. -/
theorem Unsaid.closed_abort (h : Unsaid c d) : Closed c d.abort := by
  have hOutbox : d.abort.rpc.outbox = c.rpc.outbox :=
    (show d.abort.rpc.outbox = d.rpc.outbox from rfl).trans h.outbox
  refine ⟨.dropped (List.nil_suffix ..) hOutbox (by simp [abort, follow, Rpc.Client.abort]),
    hOutbox, h.initialized, rfl, fun kept hKept r hAnswered => ?_, fun hNumbered => ?_⟩
  · rcases mem_follow_ended.mp hKept with hKept | hFinished
    · exact h.ended hKept
    · simp [Rpc.Client.cancelAll, hAnswered] at hFinished
  · refine (h.numbered hNumbered).follow ⟨List.nodup_nil, nofun, fun _ => rfl⟩ (Nat.le_refl _) ?_
    intro id outcome hFinished
    simp only [Rpc.Client.cancelAll, List.mem_map] at hFinished
    obtain ⟨other, hOpen, hSame⟩ := hFinished
    exact (Rpc.Effect.finished.inj hSame).1 ▸ hOpen

theorem Unsaid.closed_dropSender (h : Unsaid c d) : Closed c d.dropSender :=
  ⟨.took [] (by simp [dropSender, Rpc.Client.dropSender, h.accepted]) h.phase, h.outbox,
    h.initialized, rfl, fun _ hKept _ _ => h.ended hKept, fun hNumbered =>
      ⟨(h.numbered hNumbered).rpc.of_sublist (Nat.le_refl _) (.refl _) id,
        (h.numbered hNumbered).ended⟩⟩

theorem unsaid_ask {method : String} {params : Option Json} {error : Error}
    (h : c.ask method params = (d, .error error)) : Unsaid c d := by
  unfold ask at h
  split at h
  · cases h
  · rename_i rpc refusal hCall
    cases h
    rw [Rpc.Client.call_error hCall]
    exact ⟨rfl, rfl, rfl, id, List.Subset.refl _, fun hNumbered =>
      ⟨hNumbered.rpc.of_sublist (Nat.le_succ _) (.refl _) id, fun kept hKept =>
        Nat.lt_succ_of_lt (hNumbered.ended kept hKept)⟩⟩

theorem tell_error {method : String} {params : Option Json} {error : Error}
    (h : c.tell method params = (d, .error error)) : d = c := by
  unfold tell at h
  split at h
  · cases h
  · rename_i rpc refusal hNotify
    cases h
    rw [Rpc.Client.notify_error hNotify]

/-- What a client is after a message was sent, with the rest of it as it was. -/
structure Sends (c d : Client) (message : Rpc.Utterance) : Prop where
  flow : c.rpc.Flow d.rpc [message]
  outbox : d.rpc.outbox = c.rpc.outbox
  wasOpen : c.rpc.isOpen = true
  isOpen : d.rpc.isOpen = true
  initialized : d.initialized = c.initialized
  ended : d.ended = c.ended
  numbered : c.Numbered → d.Numbered

theorem ask_sends {method : String} {params : Option Json} {id : Nat}
    (h : c.ask method params = (d, .ok id)) :
    Sends c d (.call id method params) ∧ id = c.rpc.nextId ∧ d.Holds id := by
  unfold ask at h
  split at h
  · rename_i rpc id' hCall
    cases h
    have hSound := Rpc.Client.call_sound hCall
    obtain ⟨rfl, hOpen, rfl⟩ := Rpc.Client.call_ok hCall
    exact ⟨⟨.took [_] rfl rfl, rfl, hOpen, hOpen, rfl, rfl, fun hNumbered =>
      ⟨hSound hNumbered.rpc, fun kept hKept => Nat.lt_succ_of_lt (hNumbered.ended kept hKept)⟩⟩,
      rfl, .inl (by simp)⟩
  · cases h

theorem tell_sends {method : String} {params : Option Json}
    (h : c.tell method params = (d, .ok ())) : Sends c d (.notice method params) := by
  unfold tell at h
  split at h
  · rename_i rpc hNotify
    cases h
    obtain ⟨hOpen, rfl⟩ := Rpc.Client.notify_ok hNotify
    exact ⟨.took [_] rfl rfl, rfl, hOpen, hOpen, rfl, rfl, fun hNumbered =>
      ⟨hNumbered.rpc.of_sublist (Nat.le_refl _) (.refl _) id, hNumbered.ended⟩⟩
  · cases h

theorem askHandshake_sends {params : Json} {id : Nat} (h : c.askHandshake params = (d, .ok id)) :
    c.initialized = false ∧ Sends c d (.call id methods.handshake (some params)) ∧
      id = c.rpc.nextId ∧ d.Holds id := by
  unfold askHandshake at h
  split at h
  · cases h
  · rename_i hNot
    exact ⟨by simpa using hNot, ask_sends h⟩

theorem unsaid_askHandshake {params : Json} {error : Error}
    (h : c.askHandshake params = (d, .error error)) : Unsaid c d := by
  unfold askHandshake at h
  split at h
  · cases h
    exact .refl c
  · exact unsaid_ask h

/-- A client becomes initialized by a proper answer to its first call, and tells the server so. -/
theorem finishHandshake_sends {outcome : Rpc.Outcome} {handshake : Handshake}
    (h : c.finishHandshake outcome = (d, .ok handshake)) :
    outcome.result methods.handshake Handshake.read = .ok handshake ∧ d.initialized = true ∧
      ∃ e, Sends c e (.notice methods.handshakeDone (some (.object []))) ∧ d.rpc = e.rpc ∧
        d.ended = e.ended := by
  unfold finishHandshake at h
  split at h
  · cases h
  · rename_i read hRead
    dsimp only at h
    split at h
    · cases h
    · rename_i e hTell
      cases h
      obtain ⟨hFlow, hOutbox, hWasOpen, hOpen, hInitialized, hEnded, hNumbered⟩ :=
        tell_sends hTell
      exact ⟨hRead, rfl, e, ⟨hFlow, hOutbox, hWasOpen, hOpen, hInitialized, hEnded,
        fun h => hNumbered ⟨h.rpc, h.ended⟩⟩, rfl, rfl⟩

theorem unsaid_finishHandshake {outcome : Rpc.Outcome} {error : Error}
    (h : c.finishHandshake outcome = (d, .error error)) : Unsaid c d := by
  unfold finishHandshake at h
  split at h
  · cases h
    exact .refl c
  · dsimp only at h
    split at h
    · rename_i e failure hTell
      cases h
      obtain rfl := tell_error hTell
      exact ⟨rfl, rfl, rfl, id, List.Subset.refl _, fun h => ⟨h.rpc, h.ended⟩⟩
    · cases h

theorem tellInitialized_sends {method : String} {params : Json}
    (h : c.tellInitialized method params = (d, .ok ())) :
    c.initialized = true ∧ Sends c d (.notice method (some params)) := by
  unfold tellInitialized at h
  split at h
  · exact ⟨‹_›, tell_sends h⟩
  · cases h

theorem tellInitialized_error {method : String} {params : Json} {error : Error}
    (h : c.tellInitialized method params = (d, .error error)) : d = c := by
  unfold tellInitialized at h
  split at h
  · exact tell_error h
  · cases h
    rfl

theorem takeEnd_unsaid {id : Nat} {outcome : Rpc.Outcome} (h : c.takeEnd? id = some (d, outcome)) :
    Unsaid c d ∧ d.rpc = c.rpc ∧ d.initialized = c.initialized ∧ ⟨id, outcome⟩ ∈ c.ended := by
  obtain ⟨kept, hFind, hTaken⟩ := Option.map_eq_some_iff.mp h
  have hMem := List.mem_of_find?_eq_some hFind
  have hId : kept.id = id := by simpa using List.find?_some hFind
  cases hTaken
  subst hId
  exact ⟨⟨rfl, rfl, rfl, id, fun _ h => (List.mem_filter.mp h).1, fun h =>
    ⟨h.rpc, fun kept hKept => h.ended kept (List.mem_filter.mp hKept).1⟩⟩, rfl, rfl, hMem⟩

/-- A call that is held and no longer open has an end that its caller can take. -/
theorem Holds.takeEnd_isSome {id : Nat} (h : c.Holds id) (hEnded : id ∉ c.rpc.pending) :
    (c.takeEnd? id).isSome = true := by
  obtain ⟨kept, hKept, hId⟩ := h.resolve_left hEnded
  rw [takeEnd?, Option.isSome_map, List.find?_isSome]
  exact ⟨kept, hKept, by simp [hId]⟩

/-- The end of a call that is given up is there to be taken. -/
theorem expire_takeEnd {id : Nat} (h : id ∈ c.rpc.pending) :
    ((c.expire id).takeEnd? id).isSome = true := by
  rw [takeEnd?, Option.isSome_map, List.find?_isSome, expire_of_mem h]
  exact ⟨⟨id, .timedOut⟩, mem_follow_ended.mpr (.inr (List.mem_singleton.mpr rfl)), by simp⟩

/-- The shutdown request is sent by a client that is initialized, which then no longer is. -/
theorem askShutdown_cases {result : Except Error (Option Nat)} (h : c.askShutdown = (d, result)) :
    (∃ id, result = .ok (some id) ∧ c.initialized = true ∧ d.Holds id ∧
      Sends { c with initialized := false } d (.call id methods.shutdown none)) ∨
    (∀ id, result ≠ .ok (some id)) ∧ Unsaid c d := by
  unfold askShutdown at h
  split at h
  · rename_i hInitialized
    split at h
    · rename_i id hAsk
      cases h
      obtain ⟨hSends, -, hHolds⟩ := ask_sends hAsk
      exact .inl ⟨id, rfl, hInitialized, hHolds, hSends⟩
    · rename_i hAsk
      cases h
      obtain ⟨hAccepted, hOutbox, hPhase, hNot, hEnded, hNumbered⟩ := unsaid_ask hAsk
      exact .inr ⟨nofun, hAccepted, hOutbox, hPhase, fun h => Bool.noConfusion (hNot h), hEnded,
        fun h => hNumbered ⟨h.rpc, h.ended⟩⟩
  · cases h
    exact .inr ⟨nofun, .refl c⟩

/-- Closing sends the shutdown request of a client that is initialized, and this one only; otherwise
the client is closed at once. -/
theorem beginClose_cases {progress : Closing} (h : c.beginClose = (d, progress)) :
    (∃ id, progress = .awaiting id ∧ c.initialized = true ∧ d.Holds id ∧
      Sends { c with initialized := false } d (.call id methods.shutdown none)) ∨
    (∃ shutdown, progress = .flushing shutdown) ∧ Closed c d := by
  generalize hAsk : c.askShutdown = asked
  obtain ⟨e, result⟩ := asked
  rw [beginClose, hAsk] at h
  rcases askShutdown_cases hAsk with ⟨id, rfl, hSent⟩ | ⟨hNone, hUnsaid⟩
  · cases h
    exact .inl ⟨id, rfl, hSent⟩
  · match result, h with
    | .ok (some id), _ => exact absurd rfl (hNone id)
    | .ok none, h | .error error, h =>
      cases h
      exact .inr ⟨⟨_, rfl⟩, hUnsaid.closed_dropSender⟩

theorem beginClose_sends {id : Nat} (h : c.beginClose = (d, .awaiting id)) :
    c.initialized = true ∧ d.Holds id ∧
      Sends { c with initialized := false } d (.call id methods.shutdown none) := by
  rcases beginClose_cases h with ⟨id', hSame, hSent⟩ | ⟨⟨_, hOther⟩, -⟩
  · cases hSame
    exact hSent
  · cases hOther

/-- The last message of a client. -/
structure Leaves (c d : Client) : Prop where
  flow : c.rpc.Flow d.rpc [.notice methods.exit none]
  outbox : d.rpc.outbox = c.rpc.outbox
  wasOpen : c.rpc.isOpen = true
  isOpen : d.rpc.isOpen = false
  initialized : d.initialized = c.initialized
  ended : d.ended ⊆ c.ended
  numbered : c.Numbered → d.Numbered

/-- The server is told to exit when its answer to the shutdown request was proper. -/
theorem finishShutdown_cases {outcome : Rpc.Outcome} {result : Except Error Unit}
    (h : c.finishShutdown outcome = (d, result)) :
    result = .ok () ∧ Sends c d (.notice methods.exit none) ∨ d = c := by
  unfold finishShutdown at h
  split at h
  · cases h
    exact .inr rfl
  · match result, h with
    | .ok (), hTell => exact .inl ⟨rfl, tell_sends hTell⟩
    | .error error, hTell => exact .inr (tell_error hTell)

/-- Behind the end of the shutdown request only the exit notification is sent. -/
theorem closeStep_cases {progress progress' : Closing}
    (h : c.closeStep? progress = some (d, progress')) :
    (∃ id, progress = .awaiting id ∧ progress' = .flushing (.ok ()) ∧ c.Leaves d) ∨
    (∃ shutdown, progress' = .flushing shutdown) ∧ Closed c d ∨
    (∃ shutdown, progress' = .closed shutdown) ∧ d = c := by
  unfold closeStep? at h
  split at h
  · rename_i id
    obtain ⟨⟨e, outcome⟩, hTake, hFinish⟩ := Option.map_eq_some_iff.mp h
    obtain ⟨hTaken, hRpc, hInitialized, -⟩ := takeEnd_unsaid hTake
    dsimp only at hFinish
    generalize hShutdown : e.finishShutdown outcome = result at hFinish
    obtain ⟨f, shutdown⟩ := result
    cases hFinish
    rcases finishShutdown_cases hShutdown with
      ⟨rfl, hFlow, hOutbox, hWasOpen, -, hSame, hEnded, hNumbered⟩ | rfl
    · rw [hRpc] at hFlow hOutbox hWasOpen
      refine .inl ⟨id, rfl, rfl, ?_, hOutbox, hWasOpen, rfl, hSame.trans hInitialized,
        hEnded ▸ hTaken.ended, fun h => ?_⟩
      · cases hFlow with
        | took messages hAccepted hPhase => exact .took _ hAccepted hPhase
      · have hNumbered := hNumbered (hTaken.numbered h)
        exact ⟨hNumbered.rpc.of_sublist (Nat.le_refl _) (.refl _) fun hEnded => hEnded,
          hNumbered.ended⟩
    · exact .inr (.inl ⟨⟨_, rfl⟩, hTaken.closed_dropSender⟩)
  · split at h
    · cases h
      exact .inr (.inr ⟨⟨_, rfl⟩, rfl⟩)
    · cases h
  · cases h

end EditorBridge.Lsp.Client
