import EditorBridge.Proofs.Rpc.Pending
/-!
Runs in which nobody is suspended. Where each caller goes on until it waits or returns, and the loop
acts at once on a message that it takes and at its end lets go of the queue at once, the moves of an
`Exchange` add up to the steps of a `Client`; so every run of a client is one of an exchange, and
what holds of exchanges in all runs holds of clients.
-/
namespace EditorBridge.Rpc
namespace Exchange

variable {answer : Request → Response} {x : Exchange} {id : Nat} {s : Stage}

/-- No caller is about to take its number out, and the loop holds no message and no queue without
its calls. -/
structure Rested (x : Exchange) : Prop where
  staying : ∀ id, ¬ (x.stage id).Leaving
  free : x.held = none
  through : x.emptied = true → x.client.phase = .ended

theorem rested_set (hOthers : ∀ other, other ≠ id → ¬ (x.stage other).Leaving)
    (hFree : x.held = none) (hThrough : x.emptied = true → x.client.phase = .ended)
    (hStage : ¬ s.Leaving) : Rested (x.set id s) where
  staying other := by
    by_cases hSame : other = id
    · rw [hSame, set_stage_self]
      exact hStage
    · rw [set_stage_of_ne hSame]
      exact hOthers other hSame
  free := hFree
  through := hThrough

theorem Rested.set {x : Exchange} (h : Rested x) (hStage : ¬ s.Leaving) : Rested (x.set id s) :=
  rested_set (fun other _ => h.staying other) h.free h.through hStage

/-- Who is told something does not take its number out. -/
theorem tell_staying {x : Exchange} (h : ∀ id, ¬ (x.stage id).Leaving) (effect : Effect) (id : Nat) :
    ¬ ((x.tell effect).stage id).Leaving := by
  cases effect with
  | notified n => exact h id
  | finished other outcome =>
    simp only [tell]
    split
    · by_cases hSame : id = other
      · rw [hSame, set_stage_self]
        exact not_false
      · rw [set_stage_of_ne hSame]
        exact h id
    · exact h id

theorem tellAll_staying {x : Exchange} (h : ∀ id, ¬ (x.stage id).Leaving) (effects : List Effect) :
    ∀ id, ¬ ((x.tellAll effects).stage id).Leaving := by
  induction effects generalizing x with
  | nil => exact h
  | cons effect effects ih => exact ih (tell_staying h effect)

theorem Rested.tellAll {x : Exchange} (h : Rested x) (effects : List Effect) :
    Rested (x.tellAll effects) := by
  obtain ⟨hClient, hHeld, hEmptied⟩ := tellAll_frame x effects
  exact ⟨tellAll_staying h.staying effects, hHeld.trans h.free,
    by rw [hEmptied, hClient]; exact h.through⟩

theorem Rested.client {x : Exchange} (h : Rested x) {d : Client}
    (hPhase : d.phase = x.client.phase) : Rested { x with client := d } :=
  ⟨h.staying, h.free, hPhase ▸ h.through⟩

/-- A client that gives up no calls goes on, whatever else it does. -/
theorem Rested.goes_on {x : Exchange} (h : Rested x) (hOpen : x.client.phase ≠ .ended)
    (d : Client) : Rested { x with client := d } :=
  ⟨h.staying, h.free, fun hEmptied => absurd (h.through hEmptied) hOpen⟩

theorem call_uninterrupted (h : Orderly x) (hRested : Rested x) (method : String)
    (params : Option Json) :
    ∃ y, Run answer x y ∧ y.client = (x.client.call method params).1 ∧ Rested y := by
  let numbered : Exchange := { x with client := { x.client with nextId := x.client.nextId + 1 } }
  let text := Json.recordText
    (⟨version, .nat x.client.nextId, method, Client.parameters params⟩ : Request).toMembers
  let begun : Exchange := numbered.set x.client.nextId (.entering text)
  have hBegin : x.next? answer (.begin method (.ok params)) = some begun := rfl
  have hBegun : Orderly begun := next_orderly h hBegin
  have hEntering : Rested begun := (hRested.client (d := numbered.client) rfl).set not_false
  have hStage : begun.stage x.client.nextId = .entering text := set_stage_self ..
  cases hRefusal : begun.client.refusal? with
  | none =>
    have hTaken : begun.next? answer (.advance x.client.nextId) = some _ :=
      advance?_taken hStage hRefusal
    refine ⟨_, (Run.single hBegin).step hTaken, ?_, Rested.set (hEntering.client rfl) not_false⟩
    simp only [begun, numbered, set_client] at hRefusal
    simp only [Client.call, Client.enqueue, hRefusal]
    rfl
  | some refusal =>
    have hRefused := follow?_refused answer hBegun hStage hRefusal
    refine ⟨_, (Run.single hBegin).trans (run_of_follow? hRefused), ?_, hEntering.set not_false⟩
    simp only [begun, numbered, set_client] at hRefusal
    simp only [Client.call, Client.enqueue, hRefusal]
    rfl

theorem expire_uninterrupted (h : Orderly x) (hRested : Rested x) (id : Nat) :
    ∃ y, Run answer x y ∧ y.client = (x.client.expire id).1 ∧ Rested y := by
  by_cases hMem : id ∈ x.client.pending
  · have hWaiting := (h.known id hMem).resolve_right (hRested.staying id)
    have hExpire : x.next? answer (.expire id) = some (x.set id .late) :=
      congrArg some (expire_waiting hWaiting)
    have hLate : (x.set id .late).next? answer (.advance id) = some _ :=
      advance?_late (set_stage_self x id .late)
    refine ⟨_, (Run.single hExpire).step hLate, ?_, rested_set ?_ hRested.free
      hRested.through not_false⟩
    · simp [Client.expire, hMem, takeOut]
    · intro other hOther
      have hSame : ((x.set id .late).takeOut id).stage other = x.stage other :=
        set_stage_of_ne hOther
      rw [hSame]
      exact hRested.staying other
  · have hClient : (x.client.expire id).1 = x.client := by simp [Client.expire, hMem]
    exact ⟨x, .start, hClient.symm, hRested⟩

/-- A loop that takes a message acts on it. -/
theorem handle_of_inbound? {c d : Client} {m : String} {effects : List Effect}
    (hInbound : c.inbound? = some m) (hLoop : c.loopStep? answer = some (d, effects)) :
    ({ c with connection := c.connection.receive.2 } : Client).handle answer m = (d, effects) := by
  unfold Client.inbound? at hInbound
  split at hInbound
  · rename_i hTakes
    obtain ⟨nextId, pending, accepted, isOpen, phase, connection⟩ := c
    obtain ⟨rfl, rfl, rfl⟩ := hTakes
    split at hInbound
    · rename_i hMessage
      obtain rfl := Option.some.inj hInbound
      simp only [Client.loopStep?, if_true, Client.receiveStep?] at hLoop
      generalize connection.receive = received at hMessage hLoop
      obtain ⟨arrival, after⟩ := received
      obtain rfl := hMessage
      exact Option.some.inj hLoop
    · cases hInbound
  · cases hInbound

/-- At its end the loop gives up the calls in one move and lets go of the queue in the next. -/
theorem end_uninterrupted (hRested : Rested x)
    (hClosing : x.client.phase = .closing) :
    ∃ y, Run answer x y ∧ y.client = x.client.giveUp.1.letGo ∧ Rested y := by
  have hFirst : x.emptied = false := by
    rw [← Bool.not_eq_true]
    intro hEmptied
    cases (hRested.through hEmptied).symm.trans hClosing
  let emptied : Exchange :=
    { x with client := x.client.giveUp.1, emptied := true }.tellAll x.client.giveUp.2
  obtain ⟨hClient, hHeld, hEmptied⟩ :=
    tellAll_frame { x with client := x.client.giveUp.1, emptied := true } x.client.giveUp.2
  have hGiveUp : x.next? answer .loop = some emptied := by
    rw [next?, loopStep?_closing hRested.free hClosing, wrapUp, if_neg (by simp [hFirst])]
  have hLetGo : emptied.next? answer .loop = some { emptied with client := emptied.client.letGo } := by
    rw [next?, loopStep?_closing (hHeld.trans hRested.free)
      ((congrArg (·.phase) hClient).trans hClosing), wrapUp, if_pos hEmptied]
  exact ⟨_, (Run.single hGiveUp).step hLetGo, congrArg (·.letGo) hClient,
    tellAll_staying (x := { x with client := x.client.giveUp.1, emptied := true }) hRested.staying _,
    hHeld.trans hRested.free, fun _ => rfl⟩

/-- A message is taken and acted on in two moves, and so the loop comes to its end; everything else
is one move. -/
theorem loop_uninterrupted (hRested : Rested x) {d : Client} {effects : List Effect}
    (hLoop : x.client.loopStep? answer = some (d, effects)) :
    ∃ y, Run answer x y ∧ y.client = d ∧ Rested y := by
  by_cases hClosing : x.client.phase = .closing
  · simp only [Client.loopStep?, hClosing] at hLoop
    obtain ⟨rfl, -⟩ := Prod.mk.inj (Option.some.inj hLoop)
    exact end_uninterrupted hRested hClosing
  have hOpen : x.client.phase ≠ .ended := by
    intro hEnded
    simp [Client.loopStep?, hEnded] at hLoop
  cases hInbound : x.client.inbound? with
  | none =>
    have hStep : x.next? answer .loop = some ({ x with client := d }.tellAll effects) :=
      loopStep?_of_inbound?_none hRested.free hInbound hClosing hLoop
    exact ⟨_, Run.single hStep, (tellAll_frame _ _).1, (hRested.goes_on hOpen d).tellAll effects⟩
  | some m =>
    let taken : Exchange := { x with
      client := { x.client with connection := x.client.connection.receive.2 }, held := some m }
    have hTake : x.next? answer .loop = some taken := by
      simp only [next?, loopStep?, hRested.free, hInbound]
      rfl
    have hHandle : taken.client.handle answer m = (d, effects) := handle_of_inbound? hInbound hLoop
    have hAct : taken.next? answer .loop =
        some ({ x with client := d, held := none }.tellAll effects) := by
      simp only [next?, loopStep?, taken]
      rw [hHandle]
    refine ⟨_, (Run.single hTake).step hAct, (tellAll_frame _ _).1, ?_⟩
    have hAfter := hRested.goes_on hOpen d
    exact Rested.tellAll (x := { x with client := d, held := none })
      ⟨hRested.staying, rfl, hAfter.through⟩ effects

/-- A step of a client is made of moves after which again nobody is suspended. -/
theorem step_uninterrupted (h : Orderly x) (hRested : Rested x) {event : Event} {d : Client}
    {entries : List Entry} (hStep : x.client.next? answer event = some (d, entries)) :
    ∃ y, Run answer x y ∧ y.client = d ∧ Rested y := by
  have hOne {move : Move} (hMove : x.next? answer move = some { x with client := d })
      (hPhase : d.phase = x.client.phase) : ∃ y, Run answer x y ∧ y.client = d ∧ Rested y :=
    ⟨_, Run.single hMove, rfl, hRested.client hPhase⟩
  cases event with
  | call method params =>
    have hClient : (x.client.call method params).1 = d := by
      simp only [Client.next?] at hStep
      split at hStep <;> simp_all
    exact hClient ▸ call_uninterrupted h hRested method params
  | expire id =>
    obtain ⟨rfl, -⟩ := Prod.mk.inj (Option.some.inj hStep)
    exact expire_uninterrupted h hRested id
  | loop =>
    obtain ⟨⟨e, effects⟩, hLoop, hSame⟩ := Option.map_eq_some_iff.mp hStep
    obtain ⟨rfl, -⟩ := Prod.mk.inj hSame
    exact loop_uninterrupted hRested hLoop
  | abort =>
    obtain ⟨rfl, -⟩ := Prod.mk.inj (Option.some.inj hStep)
    have hAbort : x.next? answer .abort = some x.abort := rfl
    refine ⟨_, Run.single hAbort, (tellAll_frame _ _).1, ?_⟩
    exact Rested.tellAll
      (x := { x with client := x.client.abort.1, held := none, emptied := true })
      ⟨hRested.staying, rfl, fun _ => rfl⟩ _
  | notify method params =>
    obtain ⟨rfl, -⟩ := Prod.mk.inj (Option.some.inj hStep)
    have hMove : x.next? answer (.notify method params) = some _ := rfl
    exact hOne hMove (Client.notify_calls x.client method params).2.2
  | dropSender =>
    obtain ⟨rfl, -⟩ := Prod.mk.inj (Option.some.inj hStep)
    have hMove : x.next? answer .dropSender = some _ := rfl
    exact hOne hMove rfl
  | transport change =>
    obtain ⟨rfl, -⟩ := Prod.mk.inj (Option.some.inj hStep)
    have hMove : x.next? answer (.transport change) = some _ := rfl
    exact hOne hMove rfl

/-- Every run of a client is one in which nobody is suspended. -/
theorem run_uninterrupted {transport : Stream.Transport} {trace : List Entry} {c : Client}
    (hRun : Client.Run answer (.create transport) trace c) :
    ∃ x, Run answer (create transport) x ∧ x.client = c ∧ Rested x := by
  induction hRun with
  | start => exact ⟨_, .start, rfl, fun _ => not_false, rfl, nofun⟩
  | step prior last ih =>
    obtain ⟨x, hRun, rfl, hRested⟩ := ih
    obtain ⟨y, hStep, hClient, hStill⟩ := step_uninterrupted hRun.orderly hRested last
    exact ⟨y, hRun.trans hStep, hClient, hStill⟩

end Exchange
end EditorBridge.Rpc
