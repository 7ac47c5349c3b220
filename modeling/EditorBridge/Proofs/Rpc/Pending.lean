import EditorBridge.Proofs.Rpc.Exchange
/-!
The table of pending calls. A number stands in it exactly while its caller waits, but for a caller
that has been refused or whose time is over: it takes its number out itself, and may be suspended
before it does. When the loop gives up the calls, whoever waits is told that the call was cancelled,
and once it has let go of the queue nobody begins to wait any more, also not a caller that had its
number before and enters it only then. Who enters between the two waits for nothing.
-/
namespace EditorBridge.Rpc
namespace Exchange

variable {answer : Request → Response} {x y z : Exchange} {id other : Nat} {s : Stage}

/-- What the loop does to the calls, whether they are given up then, and what is told about it. -/
inductive Reach (x : Exchange) (d : Client) : Bool → List Effect → Prop where
  | passed (notifications : List Notification) (hNext : d.nextId = x.client.nextId)
      (hPending : d.pending = x.client.pending)
      (hPhase : x.client.phase = .running ∧ d.phase ≠ .ended) :
      Reach x d x.emptied (notifications.map .notified)
  | answered {m : String} {id : Nat} {r : Response} (hHeld : x.held = some m)
      (hAnswers : answers id m = some r) (hOpen : id ∈ x.client.pending)
      (hNext : d.nextId = x.client.nextId) (hPending : d.pending = x.client.pending.erase id)
      (hPhase : x.client.phase = .running ∧ d.phase ≠ .ended) :
      Reach x d x.emptied [.finished id (.answered r)]
  | gaveUp (hFirst : x.emptied = false) (hNext : d.nextId = x.client.nextId)
      (hPending : d.pending = []) (hPhase : x.client.phase = .closing ∧ d.phase = .closing) :
      Reach x d true x.client.cancelAll
  | letGo (hEmptied : x.emptied = true) (hNext : d.nextId = x.client.nextId)
      (hPending : d.pending = x.client.pending) (hPhase : d.phase = .ended) :
      Reach x d x.emptied []

/-- What becomes of an exchange with that. -/
def reached (x : Exchange) (d : Client) (emptied : Bool) (effects : List Effect) : Exchange :=
  { x with client := d, held := none, emptied }.tellAll effects

@[simp] theorem reached_client (x : Exchange) (d : Client) (emptied : Bool)
    (effects : List Effect) : (x.reached d emptied effects).client = d := (tellAll_frame ..).1

@[simp] theorem reached_held (x : Exchange) (d : Client) (emptied : Bool) (effects : List Effect) :
    (x.reached d emptied effects).held = none := (tellAll_frame ..).2.1

@[simp] theorem reached_emptied (x : Exchange) (d : Client) (emptied : Bool)
    (effects : List Effect) : (x.reached d emptied effects).emptied = emptied :=
  (tellAll_frame ..).2.2

/-- What holds of the table and the callers at every moment. -/
structure Orderly (x : Exchange) : Prop where
  distinct : x.client.pending.Nodup
  fresh : ∀ id, x.client.nextId ≤ id → x.stage id = .unused
  entered : ∀ id, x.stage id = .waiting → id ∈ x.client.pending
  known : ∀ id ∈ x.client.pending, x.stage id = .waiting ∨ (x.stage id).Leaving
  holding : x.held ≠ none → x.client.phase = .running
  left : x.emptied = true → x.client.phase ≠ .running
  wrapped : x.client.phase = .ended → x.emptied = true

theorem orderly_create (transport : Stream.Transport) : Orderly (create transport) where
  distinct := List.nodup_nil
  fresh _ _ := rfl
  entered _ h := by cases h
  known _ h := by cases h
  holding h := absurd rfl h
  left h := by cases h
  wrapped h := by cases h

namespace Orderly

theorem used (h : Orderly x) (hStage : x.stage id = s) (hBegun : s ≠ .unused) :
    id < x.client.nextId :=
  Nat.lt_of_not_le fun hFresh => hBegun (hStage.symm.trans (h.fresh id hFresh))

/-- A number that nobody waits for and nobody will take out is not in the table. -/
theorem not_mem (h : Orderly x) (hStage : x.stage id = s) (hWaiting : s ≠ .waiting)
    (hLeaving : ¬ s.Leaving) : id ∉ x.client.pending := fun hMem =>
  (h.known id hMem).elim (fun hSame => hWaiting (hStage.symm.trans hSame)) (hStage ▸ hLeaving)

/-- A caller may go on to anything but waiting; if its number stays in the table, it has to take it
out later. -/
theorem set (h : Orderly x) (hUsed : id < x.client.nextId) (hStage : s ≠ .waiting)
    (hMem : id ∈ x.client.pending → s.Leaving) : Orderly (x.set id s) where
  distinct := h.distinct
  fresh other hFresh := by
    have hNe : other ≠ id := fun hSame => Nat.not_lt.mpr hFresh (hSame ▸ hUsed)
    rw [set_stage_of_ne hNe]
    exact h.fresh other hFresh
  entered other hWaiting := by
    by_cases hSame : other = id
    · rw [hSame, set_stage_self] at hWaiting
      exact absurd hWaiting hStage
    · rw [set_stage_of_ne hSame] at hWaiting
      exact h.entered other hWaiting
  known other hOther := by
    by_cases hSame : other = id
    · rw [hSame, set_stage_self]
      exact .inr (hMem (hSame ▸ hOther))
    · rw [set_stage_of_ne hSame]
      exact h.known other hOther
  holding := h.holding
  left := h.left
  wrapped := h.wrapped

/-- A number that nobody waits for may be taken out. -/
theorem takeOut (h : Orderly x) (hStage : x.stage id ≠ .waiting) : Orderly (x.takeOut id) where
  distinct := h.distinct.sublist List.erase_sublist
  fresh := h.fresh
  entered other hWaiting := by
    have hNe : other ≠ id := by
      rintro rfl
      exact hStage hWaiting
    exact (List.mem_erase_of_ne hNe).mpr (h.entered other hWaiting)
  known other hOther := h.known other (List.mem_of_mem_erase hOther)
  holding := h.holding
  left := h.left
  wrapped := h.wrapped

/-- What happens to the client apart from the table. -/
theorem client (h : Orderly x) {d : Client} (hNext : x.client.nextId ≤ d.nextId)
    (hPending : d.pending = x.client.pending) (hPhase : d.phase = x.client.phase) :
    Orderly { x with client := d } where
  distinct := hPending ▸ h.distinct
  fresh other hFresh := h.fresh other (Nat.le_trans hNext hFresh)
  entered other hWaiting := hPending ▸ h.entered other hWaiting
  known other hOther := h.known other (hPending ▸ hOther)
  holding := hPhase ▸ h.holding
  left := hPhase ▸ h.left
  wrapped := hPhase ▸ h.wrapped

/-- A caller that enters its number waits, unless its message is refused. -/
theorem enter (h : Orderly x) {text : String} (hStage : x.stage id = .entering text)
    (hNext : s = .waiting ∨ s.Leaving) : Orderly ((x.enter id).set id s) := by
  have hOutside : id ∉ x.client.pending := h.not_mem hStage Stage.noConfusion not_false
  have hUsed : id < x.client.nextId := h.used hStage Stage.noConfusion
  have hMem (other : Nat) : other ∈ ((x.enter id).set id s).client.pending ↔
      other ∈ x.client.pending ∨ other = id := by
    simp [Exchange.enter]
  constructor
  · exact List.nodup_append.mpr ⟨h.distinct, List.nodup_singleton id, fun other hOther i hi hSame =>
      hOutside (List.mem_singleton.mp hi ▸ hSame ▸ hOther)⟩
  · intro other hFresh
    have hNe : other ≠ id := fun hSame => Nat.not_lt.mpr hFresh (hSame ▸ hUsed)
    rw [set_stage_of_ne hNe]
    exact h.fresh other hFresh
  · intro other hWaiting
    by_cases hSame : other = id
    · exact (hMem other).mpr (.inr hSame)
    · rw [set_stage_of_ne hSame] at hWaiting
      exact (hMem other).mpr (.inl (h.entered other hWaiting))
  · intro other hOther
    by_cases hSame : other = id
    · rw [hSame, set_stage_self]
      exact hNext
    · rw [set_stage_of_ne hSame]
      exact h.known other (((hMem other).mp hOther).resolve_right hSame)
  · exact h.holding
  · exact h.left
  · exact h.wrapped

/-- Numbers leave the table only together with telling their callers. -/
theorem tellAll (h : Orderly x) {d : Client} {emptied : Bool} {effects : List Effect}
    (hNext : x.client.nextId ≤ d.nextId) (hPending : d.pending.Sublist x.client.pending)
    (hKept : ∀ id ∈ d.pending, ∀ outcome, .finished id outcome ∉ effects)
    (hTold : ∀ id ∈ x.client.pending, id ∉ d.pending → x.stage id = .waiting →
      (x.reached d emptied effects).stage id ≠ .waiting)
    (hLeft : emptied = true → d.phase ≠ .running) (hOver : d.phase = .ended → emptied = true) :
    Orderly (x.reached d emptied effects) := by
  have hSame {id : Nat} (hStage : x.stage id ≠ .waiting) :
      (x.reached d emptied effects).stage id = x.stage id :=
    tellAll_stage_of_not_waiting effects hStage
  constructor
  · rw [reached_client]
    exact h.distinct.sublist hPending
  · intro id hFresh
    rw [reached_client] at hFresh
    have hUnused := h.fresh id (Nat.le_trans hNext hFresh)
    rw [hSame (by rw [hUnused]; exact Stage.noConfusion), hUnused]
  · intro id hStage
    rw [reached_client]
    have hBefore : x.stage id = .waiting :=
      Classical.byContradiction fun hNot => hNot (hSame hNot ▸ hStage)
    exact Decidable.byContradiction fun hOut => hTold id (h.entered id hBefore) hOut hBefore hStage
  · intro id hMem
    rw [reached_client] at hMem
    have hStage : (x.reached d emptied effects).stage id = x.stage id :=
      tellAll_stage_of_not_mem (hKept id hMem)
    rw [hStage]
    exact h.known id (hPending.subset hMem)
  · exact fun hHolding => absurd (reached_held ..) hHolding
  · rw [reached_emptied, reached_client]
    exact hLeft
  · rw [reached_emptied, reached_client]
    exact hOver

/-- Whoever waits and is given up is told. -/
theorem cancelled (h : Orderly x) (d : Client) (hWaiting : x.stage id = .waiting) :
    (x.reached d true x.client.cancelAll).stage id = .told .cancelled :=
  tellAll_cancelled (x := { x with client := d, held := none, emptied := true }) hWaiting
    (h.entered id hWaiting)

theorem gaveUp (h : Orderly x) {d : Client} (hNext : d.nextId = x.client.nextId)
    (hPending : d.pending = []) (hPhase : d.phase ≠ .running) :
    Orderly (x.reached d true x.client.cancelAll) := by
  refine h.tellAll (Nat.le_of_eq hNext.symm) (hPending ▸ List.nil_sublist _) (by simp [hPending])
    ?_ (fun _ => hPhase) fun _ => rfl
  intro id _ _ hWaiting
  rw [h.cancelled d hWaiting]
  exact Stage.noConfusion

theorem reach (h : Orderly x) {d : Client} {emptied : Bool} {effects : List Effect}
    (hReach : Reach x d emptied effects) : Orderly (x.reached d emptied effects) := by
  cases hReach with
  | passed notifications hNext hPending hPhase =>
    refine h.tellAll (Nat.le_of_eq hNext.symm) (hPending ▸ .refl _) (by simp) ?_
      (fun hEmptied => absurd hPhase.1 (h.left hEmptied)) fun hEnded => absurd hEnded hPhase.2
    intro id hMem hOut
    exact absurd (hPending ▸ hMem) hOut
  | @answered m id r hHeld hAnswers hOpen hNext hPending hPhase =>
    refine h.tellAll (Nat.le_of_eq hNext.symm) (hPending ▸ List.erase_sublist) ?_ ?_
      (fun hEmptied => absurd hPhase.1 (h.left hEmptied)) fun hEnded => absurd hEnded hPhase.2
    · intro other hOther outcome hMem
      cases List.mem_singleton.mp hMem
      rw [hPending] at hOther
      exact h.distinct.not_mem_erase hOther
    · intro other hMem hOut hWaiting
      obtain rfl : other = id := by
        rw [hPending] at hOut
        exact Decidable.byContradiction fun hNe => hOut ((List.mem_erase_of_ne hNe).mpr hMem)
      have hTold : (x.reached d x.emptied [.finished other (.answered r)]).stage other =
          .told (.answered r) :=
        tellAll_finished (x := { x with client := d, held := none }) hWaiting
      rw [hTold]
      exact Stage.noConfusion
  | gaveUp hFirst hNext hPending hPhase => exact h.gaveUp hNext hPending (by simp [hPhase.2])
  | letGo hEmptied hNext hPending hPhase =>
    refine h.tellAll (Nat.le_of_eq hNext.symm) (hPending ▸ .refl _) (by simp) ?_
      (fun _ => by simp [hPhase]) fun _ => hEmptied
    intro id hMem hOut
    exact absurd (hPending ▸ hMem) hOut

end Orderly

theorem handle_reach {m : String} {d : Client} {effects : List Effect}
    (hRunning : x.client.phase = .running) (hHeld : x.held = some m)
    (hHandle : x.client.handle answer m = (d, effects)) : Reach x d x.emptied effects := by
  have hOpen : x.client.phase ≠ .ended := by simp [hRunning]
  rcases Client.dispatch_cases answer x.client m with
    ⟨notifications, reply, hDispatch, -⟩ | ⟨id, r, hAnswers, hMem, hDispatch⟩
  · simp only [Client.handle, hDispatch] at hHandle
    cases reply with
    | none =>
      obtain ⟨rfl, rfl⟩ := Prod.mk.inj hHandle
      exact .passed notifications rfl rfl ⟨hRunning, hOpen⟩
    | some reply =>
      obtain ⟨rfl, rfl⟩ := Prod.mk.inj hHandle
      obtain ⟨hNext, hPending, hWritten⟩ := Client.write_calls x.client reply
      exact .passed notifications hNext hPending ⟨hRunning, hWritten hRunning⟩
  · simp only [Client.handle, hDispatch] at hHandle
    obtain ⟨rfl, rfl⟩ := Prod.mk.inj hHandle
    exact .answered hHeld hAnswers hMem rfl rfl ⟨hRunning, hOpen⟩

/-- A step of the running loop that takes no message reaches nobody. -/
theorem loopStep?_reach {d : Client} {effects : List Effect} (hInbound : x.client.inbound? = none)
    (hOpen : x.client.phase ≠ .closing) (hLoop : x.client.loopStep? answer = some (d, effects)) :
    Reach x d x.emptied effects := by
  unfold Client.loopStep? at hLoop
  split at hLoop
  · cases hLoop
  · rename_i hClosing
    exact absurd hClosing hOpen
  · rename_i hRunning
    have hLeft : Frame.LoopPhase.closing ≠ .ended := by decide
    split at hLoop
    · rename_i m rest hAccepted
      obtain ⟨rfl, rfl⟩ := Prod.mk.inj (Option.some.inj hLoop)
      obtain ⟨hNext, hPending, hWritten⟩ := Client.write_calls { x.client with accepted := rest } m
      exact .passed [] hNext hPending ⟨hRunning, hWritten hRunning⟩
    · rename_i hAccepted
      split at hLoop
      · rename_i hTakes
        unfold Client.receiveStep? at hLoop
        split at hLoop
        · rename_i m connection hReceive
          simp [Client.inbound?, hRunning, hAccepted, hTakes, hReceive] at hInbound
        · obtain ⟨rfl, rfl⟩ := Prod.mk.inj (Option.some.inj hLoop)
          exact .passed [] rfl rfl ⟨hRunning, by simp [hRunning]⟩
        · cases hLoop
        · obtain ⟨rfl, rfl⟩ := Prod.mk.inj (Option.some.inj hLoop)
          exact .passed [] rfl rfl ⟨hRunning, hLeft⟩
      · obtain ⟨rfl, rfl⟩ := Prod.mk.inj (Option.some.inj hLoop)
        exact .passed [] rfl rfl ⟨hRunning, hLeft⟩

/-- At its end the loop gives up the calls, or it lets go of the queue. -/
theorem wrapUp_reach (hHeld : x.held = none) (hClosing : x.client.phase = .closing) :
    ∃ d emptied effects, Reach x d emptied effects ∧ x.wrapUp = x.reached d emptied effects := by
  unfold wrapUp
  split
  · rename_i hEmptied
    exact ⟨x.client.letGo, _, _, .letGo hEmptied rfl rfl rfl, by rw [reached, ← hHeld]; rfl⟩
  · rename_i hFirst
    exact ⟨x.client.giveUp.1, _, _, .gaveUp (by simpa using hFirst) rfl rfl ⟨hClosing, hClosing⟩,
      by rw [reached, ← hHeld]; rfl⟩

/-- The loop takes a message and holds it, or it reaches callers. -/
theorem loop_cases (h : Orderly x) (hStep : x.loopStep? answer = some y) :
    (∃ m, x.client.phase = .running ∧ y = { x with
      client := { x.client with connection := x.client.connection.receive.2 }, held := some m }) ∨
    ∃ d emptied effects, Reach x d emptied effects ∧ y = x.reached d emptied effects := by
  unfold loopStep? at hStep
  split at hStep
  · rename_i m hHeld
    have hRunning := h.holding (by rw [hHeld]; exact Option.some_ne_none m)
    obtain ⟨⟨d, effects⟩, hHandle⟩ : ∃ after, x.client.handle answer m = after := ⟨_, rfl⟩
    rw [hHandle] at hStep
    exact .inr ⟨d, _, effects, handle_reach hRunning hHeld hHandle, (Option.some.inj hStep).symm⟩
  · rename_i hHeld
    split at hStep
    · rename_i m hInbound
      have hRunning : x.client.phase = .running := by
        unfold Client.inbound? at hInbound
        split at hInbound
        · rename_i hAll
          exact hAll.1
        · cases hInbound
      exact .inl ⟨m, hRunning, (Option.some.inj hStep).symm⟩
    · rename_i hInbound
      split at hStep
      · rename_i hClosing
        obtain rfl := Option.some.inj hStep
        exact .inr (wrapUp_reach hHeld hClosing)
      · rename_i hOpen
        obtain ⟨⟨d, effects⟩, hLoop, rfl⟩ := Option.map_eq_some_iff.mp hStep
        refine .inr ⟨d, _, effects, loopStep?_reach hInbound hOpen hLoop, ?_⟩
        rw [reached, ← hHeld]

theorem next_orderly {move : Move} (h : Orderly x) (hStep : x.next? answer move = some y) :
    Orderly y := by
  cases move with
  | begin method params =>
    obtain rfl := Option.some.inj hStep
    have hNext : Orderly { x with client := { x.client with nextId := x.client.nextId + 1 } } :=
      h.client (Nat.le_succ _) rfl rfl
    have hUnused := h.fresh x.client.nextId (Nat.le_refl _)
    have hOutside : x.client.nextId ∉ x.client.pending :=
      h.not_mem hUnused Stage.noConfusion not_false
    unfold begin
    split
    · exact hNext.set (Nat.lt_succ_self _) Stage.noConfusion fun hMem => absurd hMem hOutside
    · exact hNext.set (Nat.lt_succ_self _) Stage.noConfusion fun hMem => absurd hMem hOutside
  | advance id =>
    rcases advance?_cases hStep with ⟨text, hStage, hOpen, rfl⟩ | ⟨text, refusal, hStage, -, rfl⟩ |
      ⟨ending, hLeaving, rfl⟩ | ⟨outcome, hStage, rfl⟩
    · exact (h.enter hStage (.inl rfl)).client (Nat.le_refl _) rfl rfl
    · exact h.enter hStage (.inr trivial)
    · obtain ⟨hBegun, hWaiting⟩ := hLeaving.begun
      exact (h.takeOut hWaiting).set (h.used rfl hBegun) Stage.noConfusion fun hMem =>
        absurd hMem h.distinct.not_mem_erase
    · have hOutside : id ∉ x.client.pending := h.not_mem hStage Stage.noConfusion not_false
      exact h.set (h.used hStage Stage.noConfusion) Stage.noConfusion
        fun hMem => absurd hMem hOutside
  | expire id =>
    obtain rfl := Option.some.inj hStep
    unfold expire
    split
    · rename_i hWaiting
      exact h.set (h.used hWaiting Stage.noConfusion) Stage.noConfusion
        fun _ => trivial
    · exact h
  | notify method params =>
    obtain rfl := Option.some.inj hStep
    obtain ⟨hNext, hPending, hPhase⟩ := Client.notify_calls x.client method params
    exact h.client (Nat.le_of_eq hNext.symm) hPending hPhase
  | loop =>
    rcases loop_cases h hStep with ⟨m, hRunning, rfl⟩ | ⟨d, emptied, effects, hReach, rfl⟩
    · have hTaken : Orderly { x with
          client := { x.client with connection := x.client.connection.receive.2 } } :=
        h.client (Nat.le_refl _) rfl rfl
      exact ⟨hTaken.distinct, hTaken.fresh, hTaken.entered, hTaken.known, fun _ => hRunning,
        hTaken.left, hTaken.wrapped⟩
    · exact h.reach hReach
  | dropSender =>
    obtain rfl := Option.some.inj hStep
    exact h.client (Nat.le_refl _) rfl rfl
  | abort =>
    obtain rfl := Option.some.inj hStep
    exact h.gaveUp rfl rfl Frame.LoopPhase.noConfusion
  | transport change =>
    obtain rfl := Option.some.inj hStep
    exact h.client (Nat.le_refl _) rfl rfl

theorem Run.orderly {transport : Stream.Transport} (hRun : Run answer (create transport) x) :
    Orderly x := by
  induction hRun with
  | start => exact orderly_create transport
  | step prior last ih => exact next_orderly ih last

theorem reached_stage_of_not_mem (d : Client) (emptied : Bool) {effects : List Effect}
    (h : ∀ outcome, .finished id outcome ∉ effects) :
    (x.reached d emptied effects).stage id = x.stage id :=
  tellAll_stage_of_not_mem (x := { x with client := d, held := none, emptied }) h

theorem reached_stage_of_not_waiting (d : Client) (emptied : Bool) (effects : List Effect)
    (h : x.stage id ≠ .waiting) : (x.reached d emptied effects).stage id = x.stage id :=
  tellAll_stage_of_not_waiting (x := { x with client := d, held := none, emptied }) effects h

/-- Whoever does not wait moves on by its own steps only. -/
theorem next_stage {move : Move} (h : Orderly x) (hStep : x.next? answer move = some y)
    (hOwn : move ≠ .advance id) (hWaiting : x.stage id ≠ .waiting)
    (hBegun : ∀ method params, move = .begin method params → id ≠ x.client.nextId) :
    y.stage id = x.stage id := by
  cases move with
  | begin method params =>
    obtain rfl := Option.some.inj hStep
    have hNe := hBegun method params rfl
    unfold begin
    split <;> exact set_stage_of_ne hNe
  | advance other =>
    have hNe : id ≠ other := fun hSame => hOwn (hSame ▸ rfl)
    rcases advance?_cases hStep with ⟨text, -, -, rfl⟩ | ⟨text, refusal, -, -, rfl⟩ |
      ⟨ending, -, rfl⟩ | ⟨outcome, -, rfl⟩ <;> exact set_stage_of_ne hNe
  | expire other =>
    obtain rfl := Option.some.inj hStep
    unfold expire
    split
    · rename_i hOther
      have hNe : id ≠ other := by
        rintro rfl
        exact hWaiting hOther
      exact set_stage_of_ne hNe
    · rfl
  | loop =>
    rcases loop_cases h hStep with ⟨m, -, rfl⟩ | ⟨d, emptied, effects, -, rfl⟩
    · rfl
    · exact reached_stage_of_not_waiting d emptied effects hWaiting
  | abort =>
    obtain rfl := Option.some.inj hStep
    exact reached_stage_of_not_waiting _ true _ hWaiting
  | notify | dropSender | transport =>
    obtain rfl := Option.some.inj hStep
    rfl

/-- Whoever waits goes on waiting, or its time is over, or the loop acts on a message that answers
it, or it is given up. -/
theorem next_waiting {move : Move} (h : Orderly x) (hStep : x.next? answer move = some y)
    (hWaiting : x.stage id = .waiting) :
    y.stage id = .waiting ∨ (move = .expire id ∧ y.stage id = .late) ∨
    (∃ m r, move = .loop ∧ x.held = some m ∧ answers id m = some r ∧
      y.stage id = .told (.answered r)) ∨
    (y.emptied = true ∧ (move = .abort ∨ x.emptied = false) ∧ y.stage id = .told .cancelled) := by
  have hUsed : id < x.client.nextId := h.used hWaiting Stage.noConfusion
  have hMem := h.entered id hWaiting
  cases move with
  | begin method params =>
    obtain rfl := Option.some.inj hStep
    refine .inl (Eq.trans ?_ hWaiting)
    unfold begin
    split <;> exact set_stage_of_ne (Nat.ne_of_lt hUsed)
  | advance other =>
    have hNe : id ≠ other := by
      rintro rfl
      simp only [next?, advance?, hWaiting] at hStep
      cases hStep
    refine .inl (Eq.trans ?_ hWaiting)
    rcases advance?_cases hStep with ⟨text, -, -, rfl⟩ | ⟨text, refusal, -, -, rfl⟩ |
      ⟨ending, -, rfl⟩ | ⟨outcome, -, rfl⟩ <;> exact set_stage_of_ne hNe
  | expire other =>
    obtain rfl := Option.some.inj hStep
    by_cases hSame : id = other
    · subst hSame
      refine .inr (.inl ⟨rfl, ?_⟩)
      rw [expire_waiting hWaiting, set_stage_self]
    · refine .inl (Eq.trans ?_ hWaiting)
      unfold expire
      split
      · exact set_stage_of_ne hSame
      · rfl
  | loop =>
    rcases loop_cases h hStep with ⟨m, -, rfl⟩ | ⟨d, emptied, effects, hReach, rfl⟩
    · exact .inl hWaiting
    · cases hReach with
      | passed notifications | letGo =>
        exact .inl ((reached_stage_of_not_mem _ _ (by simp)).trans hWaiting)
      | @answered m other r hHeld hAnswers =>
        by_cases hSame : id = other
        · subst hSame
          refine .inr (.inr (.inl ⟨m, r, rfl, hHeld, hAnswers, ?_⟩))
          exact tellAll_finished (x := { x with client := d, held := none }) hWaiting
        · exact .inl ((reached_stage_of_not_mem _ _ (by simp [hSame])).trans hWaiting)
      | gaveUp hFirst =>
        exact .inr (.inr (.inr ⟨reached_emptied .., .inr hFirst, h.cancelled d hWaiting⟩))
  | abort =>
    obtain rfl := Option.some.inj hStep
    exact .inr (.inr (.inr ⟨reached_emptied .., .inl rfl, h.cancelled _ hWaiting⟩))
  | notify | dropSender | transport =>
    obtain rfl := Option.some.inj hStep
    exact .inl hWaiting

/-- A caller waits from when its message is taken. -/
theorem next_sent {move : Move} (h : Orderly x) (hStep : x.next? answer move = some y)
    (hBefore : x.stage id ≠ .waiting) (hAfter : y.stage id = .waiting) :
    ∃ text, x.stage id = .entering text ∧ move = .advance id ∧
      y.client.accepted = x.client.accepted ++ [text] := by
  by_cases hOwn : move = .advance id
  · subst hOwn
    rcases advance?_cases hStep with ⟨text, hStage, -, rfl⟩ | ⟨text, refusal, -, -, rfl⟩ |
      ⟨ending, -, rfl⟩ | ⟨outcome, -, rfl⟩
    · exact ⟨text, hStage, rfl, rfl⟩
    all_goals
      rw [set_stage_self] at hAfter
      cases hAfter
  · refine absurd hAfter ?_
    by_cases hBegun : ∃ method params, move = .begin method params ∧ id = x.client.nextId
    · obtain ⟨method, params, rfl, rfl⟩ := hBegun
      obtain rfl := Option.some.inj hStep
      unfold begin
      split <;>
        rw [set_stage_self] <;> exact Stage.noConfusion
    · rw [next_stage h hStep hOwn hBefore fun method params hMove hSame =>
        hBegun ⟨method, params, hMove, hSame⟩]
      exact hBefore

/-- The loop tells whom the message that it holds answers. -/
theorem next_answered {m : String} {r : Response} (h : Orderly x) (hHeld : x.held = some m)
    (hWaiting : x.stage id = .waiting) (hAnswers : answers id m = some r) :
    ∃ y, x.next? answer .loop = some y ∧ y.stage id = .told (.answered r) := by
  have hMem := h.entered id hWaiting
  rcases Client.dispatch_cases answer x.client m with
    ⟨notifications, reply, -, hNone⟩ | ⟨other, r', hOther, -, hDispatch⟩
  · rw [hNone id hMem] at hAnswers
    cases hAnswers
  · obtain rfl : id = other := by
      refine Decidable.byContradiction fun hNe => ?_
      rw [answers_eq_none_of_ne hOther hNe] at hAnswers
      cases hAnswers
    obtain rfl := Option.some.inj (hAnswers.symm.trans hOther)
    refine ⟨_, ?_, tellAll_finished (x := { x with
      client := { x.client with pending := x.client.pending.erase id }, held := none }) hWaiting⟩
    simp only [next?, loopStep?, hHeld, Client.handle, hDispatch]

/-- Only the loop and the end of the client touch the phase. -/
theorem next_phase {move : Move} (h : Orderly x) (hStep : x.next? answer move = some y) :
    (y.client.phase = x.client.phase ∧ y.emptied = x.emptied) ∨
    (∃ d emptied effects, move = .loop ∧ Reach x d emptied effects ∧
      y = x.reached d emptied effects) ∨
    (move = .abort ∧ y = x.reached x.client.abort.1 true x.client.cancelAll) := by
  cases move with
  | begin method params =>
    obtain rfl := Option.some.inj hStep
    unfold begin
    split <;> exact .inl ⟨rfl, rfl⟩
  | advance other =>
    rcases advance?_cases hStep with ⟨text, -, -, rfl⟩ | ⟨text, refusal, -, -, rfl⟩ |
      ⟨ending, -, rfl⟩ | ⟨outcome, -, rfl⟩ <;> exact .inl ⟨rfl, rfl⟩
  | expire other =>
    obtain rfl := Option.some.inj hStep
    unfold expire
    split <;> exact .inl ⟨rfl, rfl⟩
  | notify method params =>
    obtain rfl := Option.some.inj hStep
    exact .inl ⟨(Client.notify_calls x.client method params).2.2, rfl⟩
  | loop =>
    rcases loop_cases h hStep with ⟨m, -, rfl⟩ | ⟨d, emptied, effects, hReach, rfl⟩
    · exact .inl ⟨rfl, rfl⟩
    · exact .inr (.inl ⟨d, emptied, effects, rfl, hReach, rfl⟩)
  | abort =>
    obtain rfl := Option.some.inj hStep
    exact .inr (.inr ⟨rfl, rfl⟩)
  | dropSender | transport =>
    obtain rfl := Option.some.inj hStep
    exact .inl ⟨rfl, rfl⟩

/-- When the calls are given up the table is empty, and whoever waited is told. -/
theorem next_emptied {move : Move} (h : Orderly x) (hStep : x.next? answer move = some y)
    (hBefore : x.emptied = false) (hAfter : y.emptied = true) :
    y.client.pending = [] ∧ ∀ id, x.stage id = .waiting → y.stage id = .told .cancelled := by
  rcases next_phase h hStep with ⟨-, hSame⟩ | ⟨d, emptied, effects, -, hReach, rfl⟩ | ⟨-, rfl⟩
  · rw [hSame, hBefore] at hAfter
    cases hAfter
  · rw [reached_emptied] at hAfter
    cases hReach with
    | gaveUp hFirst hNext hPending =>
      exact ⟨by rw [reached_client, hPending], fun id hWaiting => h.cancelled d hWaiting⟩
    | passed | answered | letGo =>
      rw [hBefore] at hAfter
      cases hAfter
  · exact ⟨by rw [reached_client]; rfl, fun id hWaiting => h.cancelled _ hWaiting⟩

/-- What was given up stays so, and the end is final. -/
theorem next_stays {move : Move} (h : Orderly x) (hStep : x.next? answer move = some y) :
    (x.emptied = true → y.emptied = true) ∧
      (x.client.phase = .ended → y.client.phase = .ended) := by
  rcases next_phase h hStep with ⟨hPhase, hSame⟩ | ⟨d, emptied, effects, -, hReach, rfl⟩ |
    ⟨-, rfl⟩
  · rw [hPhase, hSame]
    exact ⟨id, id⟩
  · rw [reached_emptied, reached_client]
    cases hReach with
    | passed _ _ _ hPhase | answered _ _ _ _ _ hPhase =>
      exact ⟨id, fun hEnded => by rw [hPhase.1] at hEnded; cases hEnded⟩
    | gaveUp _ _ _ hPhase =>
      exact ⟨fun _ => rfl, fun hEnded => by rw [hPhase.1] at hEnded; cases hEnded⟩
    | letGo _ _ _ hPhase => exact ⟨id, fun _ => hPhase⟩
  · rw [reached_emptied, reached_client]
    exact ⟨fun _ => rfl, fun _ => rfl⟩

/-- What makes the running loop give up: the last caller has gone and all is written, the stream has
ended or has a fault, or a message or a reply cannot be written. -/
inductive Stops (answer : Request → Response) (x : Exchange) : Prop where
  | closed (hHeld : x.held = none) (hWritten : x.client.accepted = [])
      (hClosed : x.client.isOpen = false)
  | received (hHeld : x.held = none) (hWritten : x.client.accepted = [])
      (hFailed : x.client.connection.receive.1 = .failed)
  | unwritten {m : String} {rest : List String} {fault : Stream.Fault} (hHeld : x.held = none)
      (hNext : x.client.accepted = m :: rest) (hFailed : x.client.connection.send m = .error fault)
  | unanswered {m reply : String} {c : Client} {effects : List Effect} {fault : Stream.Fault}
      (hHeld : x.held = some m) (hReply : x.client.dispatch answer m = (c, effects, some reply))
      (hFailed : c.connection.send reply = .error fault)

theorem loopStep?_of_inbound?_none {d : Client} {effects : List Effect} (hHeld : x.held = none)
    (hInbound : x.client.inbound? = none) (hOpen : x.client.phase ≠ .closing)
    (hLoop : x.client.loopStep? answer = some (d, effects)) :
    x.loopStep? answer = some ({ x with client := d }.tellAll effects) := by
  simp only [loopStep?, hHeld, hInbound, hLoop, if_neg hOpen, Option.map_some]

theorem loopStep?_closing (hHeld : x.held = none) (hClosing : x.client.phase = .closing) :
    x.loopStep? answer = some x.wrapUp := by
  have hInbound : x.client.inbound? = none := by simp [Client.inbound?, hClosing]
  simp only [loopStep?, hHeld, hInbound, hClosing, if_true]

theorem Stops.leaves (h : Stops answer x) (hRunning : x.client.phase = .running) :
    ∃ y, x.next? answer .loop = some y ∧ y.client.phase = .closing := by
  have hLeaves {c : Client} (hHeld : x.held = none) (hInbound : x.client.inbound? = none)
      (hLoop : x.client.loopStep? answer = some (c.leave, [])) :
      ∃ y, x.next? answer .loop = some y ∧ y.client.phase = .closing :=
    ⟨_, loopStep?_of_inbound?_none hHeld hInbound (by simp [hRunning]) hLoop, rfl⟩
  cases h with
  | closed hHeld hWritten hClosed =>
    refine hLeaves (c := x.client) hHeld ?_ ?_
    · simp [Client.inbound?, hClosed]
    · simp [Client.loopStep?, hRunning, hWritten, hClosed]
  | received hHeld hWritten hFailed =>
    have hInbound : x.client.inbound? = none := by simp [Client.inbound?, hFailed]
    cases hOpen : x.client.isOpen with
    | false =>
      refine hLeaves (c := x.client) hHeld hInbound ?_
      simp [Client.loopStep?, hRunning, hWritten, hOpen]
    | true =>
      generalize hReceive : x.client.connection.receive = received at hFailed
      obtain ⟨arrival, connection⟩ := received
      obtain rfl : arrival = .failed := hFailed
      refine hLeaves (c := { x.client with connection }) hHeld hInbound ?_
      simp [Client.loopStep?, hRunning, hWritten, hOpen, Client.receiveStep?, hReceive]
  | @unwritten m rest fault hHeld hNext hFailed =>
    refine hLeaves (c := { x.client with accepted := rest }) hHeld ?_ ?_
    · simp [Client.inbound?, hNext]
    · simp [Client.loopStep?, hRunning, hNext, Client.write, hFailed]
  | @unanswered m reply c effects fault hHeld hReply hFailed =>
    have hHandle : x.client.handle answer m = (c.leave, effects) := by
      simp only [Client.handle, hReply, Client.write, hFailed]
    refine ⟨{ x with client := c.leave, held := none }.tellAll effects, ?_, ?_⟩
    · simp only [next?, loopStep?, hHeld, hHandle]
    · rw [(tellAll_frame _ _).1]
      rfl

theorem Orderly.not_held (h : Orderly x) (hClosing : x.client.phase = .closing) :
    x.held = none := by
  refine Decidable.byContradiction fun hSome => ?_
  rw [h.holding hSome] at hClosing
  cases hClosing

/-- A loop that has left the connection gives up the calls. -/
theorem closing_empties (h : Orderly x) (hClosing : x.client.phase = .closing)
    (hFirst : x.emptied = false) :
    ∃ y, x.next? answer .loop = some y ∧ y.client.phase = .closing ∧ y.emptied = true := by
  refine ⟨_, loopStep?_closing (h.not_held hClosing) hClosing, ?_⟩
  simp only [wrapUp, hFirst, Bool.false_eq_true, if_false]
  obtain ⟨hClient, -, hEmptied⟩ :=
    tellAll_frame { x with client := x.client.giveUp.1, emptied := true } x.client.giveUp.2
  exact ⟨(congrArg (·.phase) hClient).trans hClosing, hEmptied⟩

/-- Then it lets go of the queue, and that is its end. -/
theorem emptied_ends (h : Orderly x) (hClosing : x.client.phase = .closing)
    (hEmptied : x.emptied = true) :
    ∃ y, x.next? answer .loop = some y ∧ y.client.phase = .ended ∧ y.stage = x.stage ∧
      y.client.pending = x.client.pending := by
  refine ⟨_, loopStep?_closing (h.not_held hClosing) hClosing, ?_⟩
  rw [wrapUp, if_pos hEmptied]
  exact ⟨rfl, rfl, rfl⟩

/-- A refused caller leaves everything as it was. -/
theorem follow?_refused (answer : Request → Response) (h : Orderly x) {text : String}
    {refusal : Refusal} (hStage : x.stage id = .entering text)
    (hRefusal : x.client.refusal? = some refusal) :
    x.follow? answer [.advance id, .advance id] =
      some (x.set id (.returned (.refused refusal))) := by
  have hOutside : id ∉ x.client.pending := h.not_mem hStage Stage.noConfusion not_false
  have hFirst : x.next? answer (.advance id) = _ := advance?_refused hStage hRefusal
  have hSecond : ((x.enter id).set id (.withdrawing refusal)).next? answer (.advance id) = _ :=
    advance?_withdrawing (set_stage_self ..)
  have hPending : (x.client.pending ++ [id]).erase id = x.client.pending := by
    rw [List.erase_append_right _ hOutside, List.erase_cons_head, List.append_nil]
  have hBoth : (((x.enter id).set id (.withdrawing refusal)).takeOut id).set id
      (.returned (.refused refusal)) = x.set id (.returned (.refused refusal)) := by
    simp only [set, takeOut, enter, hPending, Exchange.mk.injEq, true_and, and_true]
    funext other
    split <;> rfl
  simp only [follow?, hFirst, hSecond, hBoth, Option.bind_some]

/-- The table tells who waits. -/
structure Tallied (answer : Request → Response) (x : Exchange) : Prop where
  distinct : x.client.pending.Nodup
  entered : ∀ id, x.stage id = .waiting → id ∈ x.client.pending
  known : ∀ id ∈ x.client.pending, x.stage id = .waiting ∨ (x.stage id).Leaving
  precise : (∀ id, ¬ (x.stage id).Leaving) → ∀ id, id ∈ x.client.pending ↔ x.stage id = .waiting
  /-- A caller that leaves takes its number out with its next step, and with that it returns. -/
  leaving : ∀ id, (x.stage id).Leaving → ∃ ending,
    x.next? answer (.advance id) = some ((x.takeOut id).set id (.returned ending))
  /-- Waiting begins when the message is taken, -/
  begins : ∀ id move y, x.next? answer move = some y → x.stage id ≠ .waiting →
    y.stage id = .waiting → ∃ text, x.stage id = .entering text ∧ move = .advance id ∧
      y.client.accepted = x.client.accepted ++ [text]
  /-- and it lasts until the time is over, an answer is acted on or the calls are given up. -/
  lasts : ∀ id move y, x.next? answer move = some y → x.stage id = .waiting →
    y.stage id = .waiting ∨ (move = .expire id ∧ y.stage id = .late) ∨
    (∃ m r, move = .loop ∧ x.held = some m ∧ answers id m = some r ∧
      y.stage id = .told (.answered r)) ∨
    (y.emptied = true ∧ (move = .abort ∨ x.emptied = false) ∧ y.stage id = .told .cancelled)
  answered : ∀ id m r, x.held = some m → x.stage id = .waiting → answers id m = some r →
    ∃ y, x.next? answer .loop = some y ∧ y.stage id = .told (.answered r)

/-- A request that is not sent fails at once and leaves the table as it was. -/
structure Spared (answer : Request → Response) (x : Exchange) : Prop where
  unencodable : ∀ method reason, ∃ y, x.next? answer (.begin method (.error reason)) = some y ∧
    y.client.pending = x.client.pending ∧
    (y.stage x.client.nextId).Failed (.serialization reason)
  refused : ∀ id text refusal, x.stage id = .entering text → x.client.refusal? = some refusal →
    ∃ y, x.follow? answer [.advance id, .advance id] = some y ∧ y.client = x.client ∧
      (y.stage id).Failed (.call (.transport refusal))

/-- Whatever makes the loop leave the connection, it gives up the calls and then ends. Who waits when
the calls are given up is told, and behind the end nobody begins to wait. -/
structure Concluded (answer : Request → Response) (x : Exchange) : Prop where
  gives_up : x.client.phase = .running → Stops answer x →
    ∃ y, x.next? answer .loop = some y ∧ y.client.phase = .closing
  empties : x.client.phase = .closing → x.emptied = false →
    ∃ y, x.next? answer .loop = some y ∧ y.client.phase = .closing ∧ y.emptied = true
  ends : x.client.phase = .closing → x.emptied = true →
    ∃ y, x.next? answer .loop = some y ∧ y.client.phase = .ended ∧ y.stage = x.stage ∧
      y.client.pending = x.client.pending
  cancels : ∀ move y, x.next? answer move = some y → x.emptied = false → y.emptied = true →
    y.client.pending = [] ∧ ∀ id, x.stage id = .waiting → y.stage id = .told .cancelled
  /-- Nothing else reaches who has been told, and its next step returns the error. -/
  cancelled : ∀ id, x.stage id = .told .cancelled →
    (∀ move y, move ≠ .advance id → x.next? answer move = some y →
      y.stage id = .told .cancelled) ∧
    ∃ y, x.next? answer (.advance id) = some y ∧ y.client = x.client ∧
      (y.stage id).Failed (.call .cancelled)
  final : x.client.phase = .ended → ∀ y, Run answer x y →
    y.client.phase = .ended ∧ ∀ id, y.stage id = .waiting → x.stage id = .waiting
  /-- After the end every request is refused, and so is one that had its number before. -/
  refuses : x.client.phase = .ended → ∃ refusal, x.client.refusal? = some refusal ∧
    ∀ method params, ∃ y, x.follow? answer
        [.begin method (.ok params), .advance x.client.nextId, .advance x.client.nextId] = some y ∧
      y.client.pending = x.client.pending ∧
      (y.stage x.client.nextId).Failed (.call (.transport refusal))

theorem Orderly.tallied (h : Orderly x) : Tallied answer x where
  distinct := h.distinct
  entered := h.entered
  known := h.known
  precise hNobody id := ⟨fun hMem => (h.known id hMem).resolve_right (hNobody id), h.entered id⟩
  leaving id hLeaving := by
    cases hStage : x.stage id with
    | withdrawing refusal => exact ⟨_, advance?_withdrawing hStage⟩
    | late => exact ⟨_, advance?_late hStage⟩
    | _ =>
      rw [hStage] at hLeaving
      exact hLeaving.elim
  begins _ _ _ hStep hBefore hAfter := next_sent h hStep hBefore hAfter
  lasts _ _ _ hStep hWaiting := next_waiting h hStep hWaiting
  answered _ _ _ hHeld hWaiting hAnswers := next_answered h hHeld hWaiting hAnswers

theorem failed_of_refused (x : Exchange) (id : Nat) (refusal : Refusal) :
    ((x.set id (.returned (.refused refusal))).stage id).Failed (.call (.transport refusal)) :=
  ⟨_, set_stage_self .., fun _ _ _ => rfl⟩

theorem Orderly.spared (h : Orderly x) : Spared answer x where
  unencodable _ reason :=
    ⟨_, rfl, rfl, .unencodable reason, set_stage_self .., fun _ _ _ => rfl⟩
  refused id _ refusal hStage hRefusal :=
    ⟨_, follow?_refused answer h hStage hRefusal, rfl, failed_of_refused x id refusal⟩

/-- After the end a request takes a number, and that is all. -/
theorem begun_refused (h : Orderly x) {refusal : Refusal}
    (hRefusal : x.client.refusal? = some refusal) (method : String) (params : Option Json) :
    ∃ y, x.follow? answer
        [.begin method (.ok params), .advance x.client.nextId, .advance x.client.nextId] = some y ∧
      y.client.pending = x.client.pending ∧
      (y.stage x.client.nextId).Failed (.call (.transport refusal)) := by
  let begun := x.begin method (.ok params)
  have hBegin : x.next? answer (.begin method (.ok params)) = some begun := rfl
  have hStage : begun.stage x.client.nextId = .entering _ := set_stage_self ..
  have hRefused := follow?_refused answer (next_orderly h hBegin) hStage hRefusal
  refine ⟨begun.set x.client.nextId (.returned (.refused refusal)), ?_, rfl,
    failed_of_refused begun _ refusal⟩
  rw [follow?, hBegin]
  exact hRefused

/-- Behind the end nobody begins to wait. -/
theorem next_ended {move : Move} (h : Orderly x) (hEnded : x.client.phase = .ended)
    (hStep : x.next? answer move = some y) (hWaiting : y.stage id = .waiting) :
    x.stage id = .waiting := by
  refine Classical.byContradiction fun hBefore => ?_
  obtain ⟨text, hStage, rfl, -⟩ := next_sent h hStep hBefore hWaiting
  obtain ⟨refusal, hRefusal⟩ := refusal?_of_ended hEnded
  cases hStep.symm.trans (advance?_refused hStage hRefusal)
  rw [set_stage_self] at hWaiting
  cases hWaiting

theorem Run.ended (hRun : Run answer x y) (h : Orderly x) (hEnded : x.client.phase = .ended) :
    Orderly y ∧ y.client.phase = .ended ∧ ∀ id, y.stage id = .waiting → x.stage id = .waiting := by
  induction hRun with
  | start => exact ⟨h, hEnded, fun _ => id⟩
  | step prior last ih =>
    obtain ⟨hOrderly, hPhase, hBefore⟩ := ih
    exact ⟨next_orderly hOrderly last, (next_stays hOrderly last).2 hPhase,
      fun id hWaiting => hBefore id (next_ended hOrderly hPhase last hWaiting)⟩

theorem Orderly.concluded (h : Orderly x) : Concluded answer x where
  gives_up hRunning hStops := hStops.leaves hRunning
  empties := closing_empties h
  ends := emptied_ends h
  cancels _ _ hStep hBefore hAfter := next_emptied h hStep hBefore hAfter
  cancelled id hTold := by
    refine ⟨fun move y hOther hStep => ?_, _, advance?_told hTold, rfl, _, set_stage_self ..,
      fun _ _ _ => rfl⟩
    have hUsed : id < x.client.nextId := h.used hTold Stage.noConfusion
    rw [← hTold]
    exact next_stage h hStep hOther (by rw [hTold]; exact Stage.noConfusion)
      fun _ _ _ => Nat.ne_of_lt hUsed
  final hEnded _ hRun := (hRun.ended h hEnded).2
  refuses hEnded := by
    obtain ⟨refusal, hRefusal⟩ := refusal?_of_ended hEnded
    exact ⟨refusal, hRefusal, begun_refused h hRefusal⟩

end Exchange
end EditorBridge.Rpc
