import EditorBridge.Proofs.Rpc.Run
import Mathlib.Data.List.Nodup
/-!
A client with the callers that are under way. In `Client` a request is made in one step; here a
caller may be suspended wherever the table of pending calls is locked or an answer is awaited, and
so may the loop between taking a message and acting on it, and between giving up the calls that are
open and letting go of the queue. In between anything else can happen, also a request that is taken
when the loop has given up the calls already. What a task does with nothing in between is still one
step, and it is made of the steps of `Client`.
-/
namespace EditorBridge.Rpc

inductive RequestError where
  /-- The parameters cannot be encoded. -/
  | serialization (reason : String)
  | call (error : CallError)
deriving Repr

/-- How a request ends for its caller. -/
inductive Ending where
  | unencodable (reason : String)
  | refused (refusal : Refusal)
  | awaited (outcome : Outcome)
deriving Repr

def Ending.result {α : Type} (method : String) (read : Document → Decoded α) :
    Ending → Except RequestError α
  | .unencodable reason => .error (.serialization reason)
  | .refused refusal => .error (.call (.transport refusal))
  | .awaited outcome => (outcome.result method read).mapError .call

/-- Where the caller of a number stands. -/
inductive Stage where
  | unused
  /-- It is about to lock the table, to enter its number and to hand in its message. -/
  | entering (text : String)
  /-- Its message was not taken, and it is about to lock the table and take its number out. -/
  | withdrawing (refusal : Refusal)
  | waiting
  /-- Its time is over, and it is about to lock the table and take its number out. -/
  | late
  /-- What it waits for has come. -/
  | told (outcome : Outcome)
  | returned (ending : Ending)
deriving Repr

/-- The caller has returned with an error, whatever it wanted to read. -/
def Stage.Failed (s : Stage) (error : RequestError) : Prop :=
  ∃ ending, s = .returned ending ∧
    ∀ (α : Type) (method : String) (read : Document → Decoded α),
      ending.result method read = .error error

/-- A caller that will take its number out of the table itself. -/
def Stage.Leaving : Stage → Prop
  | .withdrawing _ => True
  | .late => True
  | _ => False

theorem Stage.Leaving.begun {s : Stage} (h : s.Leaving) : s ≠ .unused ∧ s ≠ .waiting := by
  constructor <;>
  · rintro rfl
    exact h

structure Exchange where
  client : Client
  stage : Nat → Stage
  /-- The message that the loop has taken and not yet acted on. -/
  held : Option String
  /-- Has the loop given up the calls? It may still hold its end of the queue then. -/
  emptied : Bool

/-- What can happen to a client and its callers. -/
inductive Move where
  /-- A request begins; its parameters are what encoding them gives. -/
  | begin (method : String) (params : Except String (Option Json))
  /-- The caller goes on to where it may next be suspended. -/
  | advance (id : Nat)
  /-- The time of a caller is over. -/
  | expire (id : Nat)
  | notify (method : String) (params : Option Json)
  | loop
  | dropSender
  | abort
  | transport (change : Stream.Transport → Stream.Transport)

namespace Exchange

def create (transport : Stream.Transport) : Exchange :=
  ⟨.create transport, fun _ => .unused, none, false⟩

def set (x : Exchange) (id : Nat) (s : Stage) : Exchange :=
  { x with stage := fun i => if i = id then s else x.stage i }

/-- A caller that does not wait any more is not reached by what is told to it. -/
def tell (x : Exchange) : Effect → Exchange
  | .notified _ => x
  | .finished id outcome =>
    match x.stage id with
    | .waiting => x.set id (.told outcome)
    | _ => x

def tellAll (x : Exchange) (effects : List Effect) : Exchange := effects.foldl tell x

/-- The number is used up even when the parameters cannot be encoded. -/
def begin (x : Exchange) (method : String) (params : Except String (Option Json)) : Exchange :=
  let id := x.client.nextId
  let next : Exchange := { x with client := { x.client with nextId := id + 1 } }
  match params with
  | .error reason => next.set id (.returned (.unencodable reason))
  | .ok params =>
    let request : Request := ⟨version, .nat id, method, Client.parameters params⟩
    next.set id (.entering (Json.recordText request.toMembers))

/-- Puts a number into the table of pending calls. -/
def enter (x : Exchange) (id : Nat) : Exchange :=
  { x with client := { x.client with pending := x.client.pending ++ [id] } }

/-- Takes a number out of the table of pending calls, if it is there. -/
def takeOut (x : Exchange) (id : Nat) : Exchange :=
  { x with client := { x.client with pending := x.client.pending.erase id } }

def advance? (x : Exchange) (id : Nat) : Option Exchange :=
  match x.stage id with
  | .entering text =>
    match (x.enter id).client.enqueue text with
    | .ok client => some ({ x.enter id with client }.set id .waiting)
    | .error refusal => some ((x.enter id).set id (.withdrawing refusal))
  | .withdrawing refusal => some ((x.takeOut id).set id (.returned (.refused refusal)))
  | .late => some ((x.takeOut id).set id (.returned (.awaited .timedOut)))
  | .told outcome => some (x.set id (.returned (.awaited outcome)))
  | _ => none

def expire (x : Exchange) (id : Nat) : Exchange :=
  match x.stage id with
  | .waiting => x.set id .late
  | _ => x

/-- The loop that has left the connection gives up the calls, and then it lets go of the queue. -/
def wrapUp (x : Exchange) : Exchange :=
  if x.emptied then { x with client := x.client.letGo }
  else { x with client := x.client.giveUp.1, emptied := true }.tellAll x.client.giveUp.2

/-- The loop acts on the message that it holds, or takes the next one, or does what else there is to
do. -/
def loopStep? (answer : Request → Response) (x : Exchange) : Option Exchange :=
  match x.held with
  | some m =>
    let (client, effects) := x.client.handle answer m
    some ({ x with client, held := none }.tellAll effects)
  | none =>
    match x.client.inbound? with
    | some m =>
      some { x with
        client := { x.client with connection := x.client.connection.receive.2 }, held := some m }
    | none =>
      if x.client.phase = .closing then some x.wrapUp
      else (x.client.loopStep? answer).map fun (client, effects) => { x with client }.tellAll effects

def abort (x : Exchange) : Exchange :=
  { x with client := x.client.abort.1, held := none, emptied := true }.tellAll x.client.abort.2

def next? (answer : Request → Response) (x : Exchange) : Move → Option Exchange
  | .begin method params => some (x.begin method params)
  | .advance id => x.advance? id
  | .expire id => some (x.expire id)
  | .notify method params => some { x with client := (x.client.notify method params).1 }
  | .loop => x.loopStep? answer
  | .dropSender => some { x with client := x.client.dropSender }
  | .abort => some x.abort
  | .transport change =>
    some { x with client := { x.client with connection := x.client.connection.onto change } }

/-- The moves of a client and its callers one after the other. -/
inductive Run (answer : Request → Response) (x : Exchange) : Exchange → Prop where
  | start : Run answer x x
  | step {y z : Exchange} {move : Move} (prior : Run answer x y)
      (last : y.next? answer move = some z) : Run answer x z

/-- What comes of given moves one after the other, if each of them can happen. -/
def follow? (answer : Request → Response) (x : Exchange) : List Move → Option Exchange
  | [] => some x
  | move :: rest => (x.next? answer move).bind fun y => follow? answer y rest

variable {answer : Request → Response} {x y z : Exchange} {id other : Nat} {s : Stage}

theorem Run.single {move : Move} (h : x.next? answer move = some y) : Run answer x y :=
  .step .start h

theorem Run.trans (hFirst : Run answer x y) (hSecond : Run answer y z) : Run answer x z := by
  induction hSecond with
  | start => exact hFirst
  | step prior last ih => exact .step ih last

theorem run_of_follow? {moves : List Move} (h : x.follow? answer moves = some y) :
    Run answer x y := by
  induction moves generalizing x with
  | nil =>
    obtain rfl := Option.some.inj h
    exact .start
  | cons move rest ih =>
    obtain ⟨z, hStep, hRest⟩ := Option.bind_eq_some_iff.mp h
    exact (Run.single hStep).trans (ih hRest)

@[simp] theorem set_client (x : Exchange) (id : Nat) (s : Stage) : (x.set id s).client = x.client :=
  rfl

@[simp] theorem set_stage_self (x : Exchange) (id : Nat) (s : Stage) :
    (x.set id s).stage id = s := if_pos rfl

theorem set_stage_of_ne (h : other ≠ id) : (x.set id s).stage other = x.stage other := if_neg h

theorem tell_frame (x : Exchange) (effect : Effect) :
    (x.tell effect).client = x.client ∧ (x.tell effect).held = x.held ∧
      (x.tell effect).emptied = x.emptied := by
  cases effect with
  | notified n => exact ⟨rfl, rfl, rfl⟩
  | finished id outcome =>
    simp only [tell]
    split <;> exact ⟨rfl, rfl, rfl⟩

/-- Telling changes nothing but the stages of callers. -/
theorem tellAll_frame (x : Exchange) (effects : List Effect) :
    (x.tellAll effects).client = x.client ∧ (x.tellAll effects).held = x.held ∧
      (x.tellAll effects).emptied = x.emptied := by
  induction effects generalizing x with
  | nil => exact ⟨rfl, rfl, rfl⟩
  | cons effect effects ih =>
    obtain ⟨hClient, hHeld, hEmptied⟩ := ih (x.tell effect)
    obtain ⟨hClient', hHeld', hEmptied'⟩ := tell_frame x effect
    exact ⟨hClient.trans hClient', hHeld.trans hHeld', hEmptied.trans hEmptied'⟩

theorem wrapUp_held (x : Exchange) : x.wrapUp.held = x.held := by
  unfold wrapUp
  split
  · rfl
  · exact (tellAll_frame ..).2.1

theorem tell_finished (h : x.stage id = .waiting) (outcome : Outcome) :
    x.tell (.finished id outcome) = x.set id (.told outcome) := by
  simp only [tell, h]

theorem tellAll_finished (h : x.stage id = .waiting) {outcome : Outcome} :
    (x.tellAll [.finished id outcome]).stage id = .told outcome := by
  rw [tellAll, List.foldl_cons, List.foldl_nil, tell_finished h, set_stage_self]

theorem tell_stage_of_not_waiting (effect : Effect) (h : x.stage id ≠ .waiting) :
    (x.tell effect).stage id = x.stage id := by
  cases effect with
  | notified n => rfl
  | finished other outcome =>
    simp only [tell]
    split
    · rename_i hWaiting
      refine set_stage_of_ne ?_
      rintro rfl
      exact h hWaiting
    · rfl

/-- Only a caller that waits is reached. -/
theorem tellAll_stage_of_not_waiting (effects : List Effect) (h : x.stage id ≠ .waiting) :
    (x.tellAll effects).stage id = x.stage id := by
  induction effects generalizing x with
  | nil => rfl
  | cons effect effects ih =>
    have hFirst := tell_stage_of_not_waiting effect h
    exact (ih (by rw [hFirst]; exact h)).trans hFirst

theorem tell_stage_of_ne {effect : Effect} (h : ∀ outcome, effect ≠ .finished id outcome) :
    (x.tell effect).stage id = x.stage id := by
  cases effect with
  | notified n => rfl
  | finished other outcome =>
    simp only [tell]
    split
    · refine set_stage_of_ne ?_
      rintro rfl
      exact h outcome rfl
    · rfl

/-- What is told to others does not reach a caller. -/
theorem tellAll_stage_of_not_mem {effects : List Effect}
    (h : ∀ outcome, .finished id outcome ∉ effects) :
    (x.tellAll effects).stage id = x.stage id := by
  induction effects generalizing x with
  | nil => rfl
  | cons effect effects ih =>
    simp only [List.mem_cons, not_or] at h
    have hFirst : (x.tell effect).stage id = x.stage id :=
      tell_stage_of_ne fun outcome => Ne.symm (h outcome).1
    exact (ih fun outcome => (h outcome).2).trans hFirst

/-- A caller that waits gets the first outcome that is told to it. -/
theorem tellAll_cancelled {ids : List Nat} (hWaiting : x.stage id = .waiting) (hMem : id ∈ ids) :
    (x.tellAll (ids.map fun i => .finished i .cancelled)).stage id = .told .cancelled := by
  induction ids generalizing x with
  | nil => cases hMem
  | cons i ids ih =>
    by_cases hSame : id = i
    · subst hSame
      have hTold : (x.tell (.finished id .cancelled)).stage id = .told .cancelled := by
        rw [tell_finished hWaiting, set_stage_self]
      have hRest := tellAll_stage_of_not_waiting (x := x.tell (.finished id .cancelled))
        (ids.map fun i => .finished i .cancelled) (by rw [hTold]; exact Stage.noConfusion)
      exact hRest.trans hTold
    · have hOther : (x.tell (.finished i .cancelled)).stage id = .waiting := by
        rw [tell_stage_of_ne, hWaiting]
        rintro outcome hEffect
        cases hEffect
        exact hSame rfl
      exact ih hOther ((List.mem_cons.mp hMem).resolve_left hSame)

theorem expire_waiting (h : x.stage id = .waiting) : x.expire id = x.set id .late := by
  simp only [expire, h]

/-- Once the loop has ended, no message is taken. -/
theorem refusal?_of_ended {c : Client} (h : c.phase = .ended) :
    ∃ refusal, c.refusal? = some refusal := by
  rw [Client.refusal?, if_pos h]
  split <;> exact ⟨_, rfl⟩

section Advance

variable {text : String} {refusal : Refusal} {outcome : Outcome}

theorem advance?_taken (hStage : x.stage id = .entering text) (h : x.client.refusal? = none) :
    x.advance? id = some ({ x.enter id with
      client := { (x.enter id).client with accepted := x.client.accepted ++ [text] } }.set id
        .waiting) := by
  have hEnter : (x.enter id).client.refusal? = none := h
  simp only [advance?, hStage, Client.enqueue, hEnter]
  rfl

theorem advance?_refused (hStage : x.stage id = .entering text)
    (h : x.client.refusal? = some refusal) :
    x.advance? id = some ((x.enter id).set id (.withdrawing refusal)) := by
  have hEnter : (x.enter id).client.refusal? = some refusal := h
  simp only [advance?, hStage, Client.enqueue, hEnter]

theorem advance?_withdrawing (hStage : x.stage id = .withdrawing refusal) :
    x.advance? id = some ((x.takeOut id).set id (.returned (.refused refusal))) := by
  simp only [advance?, hStage]

theorem advance?_late (hStage : x.stage id = .late) :
    x.advance? id = some ((x.takeOut id).set id (.returned (.awaited .timedOut))) := by
  simp only [advance?, hStage]

theorem advance?_told (hStage : x.stage id = .told outcome) :
    x.advance? id = some (x.set id (.returned (.awaited outcome))) := by
  simp only [advance?, hStage]

/-- What a caller does when it goes on. -/
theorem advance?_cases (h : x.advance? id = some y) :
    (∃ text, x.stage id = .entering text ∧ x.client.refusal? = none ∧ y = { x.enter id with
      client := { (x.enter id).client with accepted := x.client.accepted ++ [text] } }.set id
        .waiting) ∨
    (∃ text refusal, x.stage id = .entering text ∧ x.client.refusal? = some refusal ∧
      y = (x.enter id).set id (.withdrawing refusal)) ∨
    (∃ ending, (x.stage id).Leaving ∧ y = (x.takeOut id).set id (.returned ending)) ∨
    ∃ outcome, x.stage id = .told outcome ∧ y = x.set id (.returned (.awaited outcome)) := by
  cases hStage : x.stage id with
  | entering text =>
    cases hRefusal : x.client.refusal? with
    | none =>
      exact .inl ⟨text, rfl, rfl, Option.some.inj (h.symm.trans (advance?_taken hStage hRefusal))⟩
    | some refusal =>
      exact .inr (.inl ⟨text, refusal, rfl, rfl,
        Option.some.inj (h.symm.trans (advance?_refused hStage hRefusal))⟩)
  | withdrawing refusal =>
    exact .inr (.inr (.inl ⟨_, trivial,
      Option.some.inj (h.symm.trans (advance?_withdrawing hStage))⟩))
  | late =>
    exact .inr (.inr (.inl ⟨_, trivial, Option.some.inj (h.symm.trans (advance?_late hStage))⟩))
  | told outcome =>
    exact .inr (.inr (.inr ⟨outcome, rfl, Option.some.inj (h.symm.trans (advance?_told hStage))⟩))
  | _ =>
    simp only [advance?, hStage] at h
    cases h

end Advance

end Exchange
end EditorBridge.Rpc
