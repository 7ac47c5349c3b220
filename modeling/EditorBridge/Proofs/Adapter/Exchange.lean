import EditorBridge.Proofs.Adapter.Verdict
/-!
A client with the callers that are under way. In `Client` a request is sent in one step, and the
loop takes a message and acts on it in one; here a caller may be suspended wherever the table of
open requests is locked, and so may the loop before it acts on the message it has taken, and between
giving up the requests that are open and letting go of the queue. Between the sending of a request
and the wait for its answer, and before any of these steps, anything else can happen.
-/
namespace EditorBridge.Adapter

/-- Where the caller of a number stands. -/
inductive Caller where
  | unused
  /-- It is about to lock the table, to enter its number and to hand in its request. -/
  | entering (command : String) (arguments : Option Json)
  /-- Its request was not taken, and it is about to lock the table and take its number out. -/
  | withdrawing
  | refused
  /-- Its request is sent, and it waits for the answer whenever it wants to. -/
  | holding (command : String)
  | waiting (command : String) (limit : Duration)
  /-- Its time is over, and it is about to lock the table and take its number out. -/
  | late (command : String) (limit : Duration)
  | returned (result : Except CallError Response)
  /-- It does not want the answer any more. -/
  | dropped

/-- What can happen to a client and its callers. -/
inductive Move where
  /-- A request gets its number. -/
  | begin (command : String) (arguments : Option Json)
  /-- The caller goes on to where it may next be suspended. -/
  | advance (seq : Nat)
  | wait (seq : Nat) (limit : Duration)
  /-- The time of a caller is over before there is a result for it. -/
  | expire (seq : Nat)
  | drop (seq : Nat)
  | takeEvent
  | missEvent
  | loop
  | dropSender
  | abort
  | transport (happening : Stream.Happening)

structure Exchange where
  client : Client
  caller : Nat → Caller
  /-- The message that the loop has taken and not yet acted on. -/
  held : Option String
  /-- Has the loop given up the requests? It may still hold its end of the queue then. -/
  emptied : Bool

namespace Exchange

def create (transport : Stream.Transport) : Exchange :=
  ⟨.create transport, fun _ => .unused, none, false⟩

def set (x : Exchange) (seq : Nat) (s : Caller) : Exchange :=
  { x with caller := fun i => if i = seq then s else x.caller i }

def begin (x : Exchange) (command : String) (arguments : Option Json) : Exchange :=
  { x with client := { x.client with nextSeq := x.client.nextSeq + 1 } }.set x.client.nextSeq
    (.entering command arguments)

/-- Puts a number into the table of open requests. -/
def enter (x : Exchange) (seq : Nat) : Exchange :=
  { x with client := { x.client with pending := x.client.pending ++ [seq] } }

/-- Takes a number out of the table of open requests, if it is there. -/
def takeOut (x : Exchange) (seq : Nat) : Exchange :=
  { x with client := x.client.giveUp seq }

/-- Puts a request behind those that wait to be written. -/
def accept (x : Exchange) (r : Request) : Exchange :=
  { x with client := { x.client with accepted := x.client.accepted ++ [r] } }

def advance? (x : Exchange) (seq : Nat) : Option (Exchange × List Entry) :=
  match x.caller seq with
  | .entering command arguments =>
    if x.client.takesRequests then
      some (((x.enter seq).accept ⟨seq, command, arguments⟩).set seq (.holding command),
        [.sent ⟨seq, command, arguments⟩])
    else some ((x.enter seq).set seq .withdrawing, [])
  | .withdrawing => some ((x.takeOut seq).set seq .refused, [.refused seq])
  | .waiting _ _ => (x.client.poll? seq).map fun (client, result) =>
    ({ x with client }.set seq (.returned result), [.returned seq result])
  | .late command limit =>
    let result := .error (.timeout command limit)
    some ((x.takeOut seq).set seq (.returned result), [.returned seq result])
  | _ => none

def wait? (x : Exchange) (seq : Nat) (limit : Duration) : Option Exchange :=
  match x.caller seq with
  | .holding command => some (x.set seq (.waiting command limit))
  | _ => none

def expire? (x : Exchange) (seq : Nat) : Option (Exchange × List Entry) :=
  match x.caller seq, x.client.poll? seq with
  | .waiting command limit, none =>
    some (x.set seq (.late command limit), [.expired seq command limit])
  | _, _ => none

def drop? (x : Exchange) (seq : Nat) : Option Exchange :=
  match x.caller seq with
  | .holding _ | .waiting _ _ => some (x.set seq .dropped)
  | _ => none

/-- A step of the client in which no caller takes part. -/
def aside? (x : Exchange) (action : Client.Action) : Option (Exchange × List Entry) :=
  (x.client.next? action).map fun (client, entries) => ({ x with client }, entries)

/-- The messages that were read and that the loop has not acted on. -/
def unheard (x : Exchange) : List String := x.held.toList ++ x.client.connection.reader.queue

/-- The loop that has left the connection gives up the requests that are open, and then it lets go
of the queue. -/
def wrapUp (x : Exchange) : Exchange × List Entry :=
  if x.emptied then ({ x with client := x.client.letGo }, [])
  else ({ x with client := x.client.forget, emptied := true }, [.ended])

/-- What there is to do for the loop besides acting on messages. -/
def proceed? (x : Exchange) : Option (Exchange × List Entry) :=
  if x.client.phase = .closing then some x.wrapUp
  else (x.aside? .loop).map fun (y, entries) =>
    (y, entries ++ if y.client.phase = .closing then [.left y.unheard] else [])

/-- The loop acts on the message that it holds, or takes the next one, or does what else there is to
do. -/
def loop? (x : Exchange) : Option (Exchange × List Entry) :=
  match x.held, x.client.inbound? with
  | some m, _ =>
    let client := x.client.handle m
    some ({ x with client, held := none }, .received m x.client.writable ::
      (x.client.wrote client (x.client.reply? m)).map .wrote)
  | none, some m =>
    some ({ x with
      client := { x.client with connection := x.client.connection.receive.2 }, held := some m }, [])
  | none, none => x.proceed?

/-- Has the connection come to its end? -/
def isOver (x : Exchange) : Bool := x.emptied || x.client.phase == .ended

def abort (x : Exchange) : Exchange × List Entry :=
  ({ x with client := x.client.abort, held := none }, if x.isOver then [] else [.cutOff x.unheard])

def next? (x : Exchange) : Move → Option (Exchange × List Entry)
  | .begin command arguments => some (x.begin command arguments, [])
  | .advance seq => x.advance? seq
  | .wait seq limit => (x.wait? seq limit).map (·, [])
  | .expire seq => x.expire? seq
  | .drop seq => (x.drop? seq).map (·, [])
  | .takeEvent => x.aside? .takeEvent
  | .missEvent => x.aside? .missEvent
  | .loop => x.loop?
  | .dropSender => x.aside? .dropSender
  | .abort => some x.abort
  | .transport happening => x.aside? (.transport happening)

/-- The moves of a client and its callers one after the other, with their trace. -/
inductive Run (x : Exchange) : List Entry → Exchange → Prop where
  | start : Run x [] x
  | step {trace entries : List Entry} {y z : Exchange} {move : Move} (prior : Run x trace y)
      (last : y.next? move = some (z, entries)) : Run x (trace ++ entries) z

/-- What comes of given moves one after the other, if each of them can happen. -/
def follow? (x : Exchange) : List Move → Option (List Entry × Exchange)
  | [] => some ([], x)
  | move :: rest =>
    match x.next? move with
    | none => none
    | some (y, entries) => (follow? y rest).map fun (trace, z) => (entries ++ trace, z)

variable {x y z : Exchange} {seq other : Nat} {s : Caller} {entries : List Entry}

theorem Run.single {move : Move} (h : x.next? move = some (y, entries)) : Run x entries y :=
  .step .start h

theorem Run.trans {first second : List Entry} (hFirst : Run x first y) (hSecond : Run y second z) :
    Run x (first ++ second) z := by
  induction hSecond with
  | start => simpa using hFirst
  | step prior last ih => rw [← List.append_assoc]; exact .step ih last

theorem run_of_follow? {moves : List Move} {trace : List Entry}
    (h : x.follow? moves = some (trace, y)) : Run x trace y := by
  induction moves generalizing x trace with
  | nil =>
    cases h
    exact .start
  | cons move rest ih =>
    unfold follow? at h
    split at h
    · cases h
    · rename_i z entries hStep
      obtain ⟨⟨more, e⟩, hRest, hEnd⟩ := Option.map_eq_some_iff.mp h
      cases hEnd
      exact (Run.single hStep).trans (ih hRest)

@[simp] theorem set_client (x : Exchange) (seq : Nat) (s : Caller) :
    (x.set seq s).client = x.client := rfl

@[simp] theorem set_caller_self (x : Exchange) (seq : Nat) (s : Caller) :
    (x.set seq s).caller seq = s := if_pos rfl

theorem set_caller_of_ne (h : other ≠ seq) : (x.set seq s).caller other = x.caller other := if_neg h

@[simp] theorem begin_client (x : Exchange) (command : String) (arguments : Option Json) :
    (x.begin command arguments).client = { x.client with nextSeq := x.client.nextSeq + 1 } := rfl

/-- What the caller of a number does, and what the trace tells about it. -/
inductive Turn (x : Exchange) (seq : Nat) : Caller → Client → List Entry → Prop where
  | sent {command : String} {arguments : Option Json}
      (hCaller : x.caller seq = .entering command arguments)
      (hTakes : x.client.takesRequests = true) :
      Turn x seq (.holding command)
        ((x.enter seq).accept ⟨seq, command, arguments⟩).client [.sent ⟨seq, command, arguments⟩]
  | turnedAway {command : String} {arguments : Option Json}
      (hCaller : x.caller seq = .entering command arguments)
      (hTakes : x.client.takesRequests = false) : Turn x seq .withdrawing (x.enter seq).client []
  | withdrew (hCaller : x.caller seq = .withdrawing) :
      Turn x seq .refused (x.takeOut seq).client [.refused seq]
  | waited {command : String} {limit : Duration} (hCaller : x.caller seq = .holding command) :
      Turn x seq (.waiting command limit) x.client []
  | returned {command : String} {limit : Duration} {result : Except CallError Response}
      (hCaller : x.caller seq = .waiting command limit)
      (hResult : x.client.result? seq = some result) :
      Turn x seq (.returned result)
        { x.client with answers := x.client.answers.filter (·.seq != seq) } [.returned seq result]
  | expired {command : String} {limit : Duration} (hCaller : x.caller seq = .waiting command limit)
      (hResult : x.client.result? seq = none) :
      Turn x seq (.late command limit) x.client [.expired seq command limit]
  | timedOut {command : String} {limit : Duration} (hCaller : x.caller seq = .late command limit) :
      Turn x seq (.returned (.error (.timeout command limit))) (x.takeOut seq).client
        [.returned seq (.error (.timeout command limit))]
  | dropped (hCaller : (∃ command, x.caller seq = .holding command) ∨
      ∃ command limit, x.caller seq = .waiting command limit) : Turn x seq .dropped x.client []

section Advance

variable {command : String} {arguments : Option Json} {limit : Duration}
  {result : Except CallError Response}

theorem advance?_sent (hCaller : x.caller seq = .entering command arguments)
    (hTakes : x.client.takesRequests = true) :
    x.advance? seq = some (((x.enter seq).accept ⟨seq, command, arguments⟩).set seq
      (.holding command), [.sent ⟨seq, command, arguments⟩]) := by
  simp only [advance?, hCaller, hTakes, if_true]

theorem advance?_turnedAway (hCaller : x.caller seq = .entering command arguments)
    (hTakes : x.client.takesRequests = false) :
    x.advance? seq = some ((x.enter seq).set seq .withdrawing, []) := by
  simp [advance?, hCaller, hTakes]

theorem advance?_withdrawing (hCaller : x.caller seq = .withdrawing) :
    x.advance? seq = some ((x.takeOut seq).set seq .refused, [.refused seq]) := by
  simp only [advance?, hCaller]

theorem advance?_late (hCaller : x.caller seq = .late command limit) :
    x.advance? seq = some ((x.takeOut seq).set seq (.returned (.error (.timeout command limit))),
      [.returned seq (.error (.timeout command limit))]) := by
  simp only [advance?, hCaller]

theorem advance?_returned (hCaller : x.caller seq = .waiting command limit)
    (hResult : x.client.result? seq = some result) :
    x.advance? seq = some (({ x with
      client := { x.client with answers := x.client.answers.filter (·.seq != seq) } } :
        Exchange).set seq (.returned result), [.returned seq result]) := by
  obtain ⟨⟨d, result'⟩, hPoll, rfl⟩ := Option.map_eq_some_iff.mp hResult
  obtain ⟨rfl, -⟩ := Client.poll?_some hPoll
  simp only [advance?, hCaller, hPoll, Option.map_some]

theorem advance?_undecided (hCaller : x.caller seq = .waiting command limit)
    (hResult : x.client.result? seq = none) : x.advance? seq = none := by
  have hPoll : x.client.poll? seq = none := Option.map_eq_none_iff.mp hResult
  simp only [advance?, hCaller, hPoll, Option.map_none]

theorem advance?_turn (h : x.advance? seq = some (y, entries)) :
    ∃ s d, Turn x seq s d entries ∧ y = { x with client := d }.set seq s := by
  cases hCaller : x.caller seq with
  | entering command arguments =>
    cases hTakes : x.client.takesRequests with
    | true =>
      rw [advance?_sent hCaller hTakes] at h
      cases h
      exact ⟨_, _, .sent hCaller hTakes, rfl⟩
    | false =>
      rw [advance?_turnedAway hCaller hTakes] at h
      cases h
      exact ⟨_, _, .turnedAway hCaller hTakes, rfl⟩
  | withdrawing =>
    rw [advance?_withdrawing hCaller] at h
    cases h
    exact ⟨_, _, .withdrew hCaller, rfl⟩
  | waiting command limit =>
    cases hResult : x.client.result? seq with
    | none =>
      rw [advance?_undecided hCaller hResult] at h
      cases h
    | some result =>
      rw [advance?_returned hCaller hResult] at h
      cases h
      exact ⟨_, _, .returned hCaller hResult, rfl⟩
  | late command limit =>
    rw [advance?_late hCaller] at h
    cases h
    exact ⟨_, _, .timedOut hCaller, rfl⟩
  | unused | refused | holding | returned | dropped =>
    simp only [advance?, hCaller] at h
    cases h

theorem expire?_waiting (hCaller : x.caller seq = .waiting command limit)
    (hResult : x.client.result? seq = none) :
    x.expire? seq = some (x.set seq (.late command limit), [.expired seq command limit]) := by
  have hPoll : x.client.poll? seq = none := Option.map_eq_none_iff.mp hResult
  simp only [expire?, hCaller, hPoll]

/-- A result that is there is never given up. -/
theorem expire?_decided (hResult : x.client.result? seq = some result) : x.expire? seq = none := by
  obtain ⟨⟨d, result'⟩, hPoll, -⟩ := Option.map_eq_some_iff.mp hResult
  rw [expire?, hPoll]
  cases x.caller seq <;> rfl

end Advance

/-- What the loop does, or a step of the client in which no caller takes part. -/
inductive Aside (x : Exchange) : Exchange → List Entry → Prop where
  | took {m : String} {connection : Frame.Connection} (hRunning : x.client.phase = .running) :
      Aside x { x with client := { x.client with connection }, held := some m } []
  | acted {m : String} {d : Client} {said : List Message} (hHeld : x.held = some m)
      (hHandled : Client.Handled m x.client d said) :
      Aside x { x with client := d, held := none } (.received m x.client.writable :: said.map .wrote)
  | stayed {d : Client} {entries : List Entry} (hTurn : Client.LoopTurn x.client d entries)
      (hStays : d.phase = .running) : Aside x { x with client := d } entries
  | left {d : Client} (hIdle : x.held = none) (hTurn : Client.LoopTurn x.client d [])
      (hRunning : x.client.phase = .running) (hLeaves : d.phase = .closing) :
      Aside x { x with client := d } [.left d.connection.reader.queue]
  | gaveUp (hClosing : x.client.phase = .closing) (hFirst : x.emptied = false) :
      Aside x { x with client := x.client.forget, emptied := true } [.ended]
  | letGo (hClosing : x.client.phase = .closing) (hEmptied : x.emptied = true) :
      Aside x { x with client := x.client.letGo } []
  | event {e : Event} {events : List Event} :
      Aside x { x with client := { x.client with events } } [.took e]
  | noEvent : Aside x x [.noEvent]
  | closed : Aside x { x with client := x.client.dropSender } []
  | stopped (hOver : x.isOver = true) :
      Aside x { x with client := x.client.abort, held := none } []
  | cutOff (hGoes : x.isOver = false) :
      Aside x { x with client := x.client.abort, held := none } [.cutOff x.unheard]
  | moved {happening : Stream.Happening} :
      Aside x { x with client := { x.client with
        connection := x.client.connection.onto (·.after happening) } } []

theorem Aside.caller (h : Aside x y entries) : y.caller = x.caller := by
  cases h <;> rfl

/-- The loop acts on the message that it holds. -/
theorem loop?_acted {m : String} (h : x.held = some m) : ∃ d said,
    Client.Handled m x.client d said ∧ x.loop? = some ({ x with client := d, held := none },
      .received m x.client.writable :: said.map .wrote) := by
  obtain ⟨said, hHandled⟩ := Client.handled x.client m
  refine ⟨_, said, hHandled, ?_⟩
  simp only [loop?, h, hHandled.wrote]

theorem wrapUp_aside (hClosing : x.client.phase = .closing) : Aside x x.wrapUp.1 x.wrapUp.2 := by
  unfold wrapUp
  split
  · rename_i hEmptied
    exact .letGo hClosing hEmptied
  · rename_i hFirst
    exact .gaveUp hClosing (Bool.not_eq_true _ ▸ hFirst)

theorem proceed?_aside (hIdle : x.held = none) (h : x.proceed? = some (y, entries)) :
    Aside x y entries := by
  unfold proceed? at h
  split at h
  · rename_i hClosing
    obtain ⟨rfl, rfl⟩ := Prod.mk.inj (Option.some.inj h)
    exact wrapUp_aside hClosing
  · rename_i hClosing
    obtain ⟨⟨z, said⟩, hAside, hEq⟩ := Option.map_eq_some_iff.mp h
    obtain ⟨⟨d, said'⟩, hNext, hSame⟩ := Option.map_eq_some_iff.mp hAside
    cases hSame
    cases hEq
    have hTurn := Client.loop_turn hNext
    rcases hTurn.phases with ⟨-, hStays⟩ | ⟨hRunning, hLeaves, hQuiet⟩ | ⟨hBefore, -⟩
    · simp only [hStays, reduceCtorEq, if_false, List.append_nil]
      exact .stayed hTurn hStays
    · subst hQuiet
      have hUnheard : ({ x with client := d } : Exchange).unheard = d.connection.reader.queue := by
        rw [unheard, hIdle]
        rfl
      simp only [hLeaves, if_true, List.nil_append, hUnheard]
      exact .left hIdle hTurn hRunning hLeaves
    · exact absurd hBefore hClosing

theorem loop?_aside (h : x.loop? = some (y, entries)) : Aside x y entries := by
  cases hHeld : x.held with
  | some m =>
    obtain ⟨d, said, hHandled, hLoop⟩ := loop?_acted hHeld
    cases h.symm.trans hLoop
    exact .acted hHeld hHandled
  | none =>
    cases hInbound : x.client.inbound? with
    | some m =>
      simp only [loop?, hHeld, hInbound] at h
      cases h
      exact .took (Client.running_of_inbound hInbound)
    | none =>
      simp only [loop?, hHeld, hInbound] at h
      exact proceed?_aside hHeld h

theorem abort_aside (x : Exchange) : Aside x x.abort.1 x.abort.2 := by
  cases hOver : x.isOver with
  | true =>
    simp only [abort, hOver, if_true]
    exact .stopped hOver
  | false =>
    simp only [abort, hOver, Bool.false_eq_true, if_false]
    exact .cutOff hOver

/-- Every move is the beginning of a request, a caller's, or one in which no caller takes part. -/
theorem next?_cases {move : Move} (h : x.next? move = some (y, entries)) :
    (∃ command arguments, y = x.begin command arguments ∧ entries = []) ∨
    (∃ seq s d, Turn x seq s d entries ∧ y = { x with client := d }.set seq s) ∨
    Aside x y entries := by
  have hAside {action : Client.Action} (hAction : x.aside? action = some (y, entries))
      (hTurn : ∀ d, Client.Turn x.client action d entries →
        Aside x { x with client := d } entries) : Aside x y entries := by
    obtain ⟨⟨d, entries'⟩, hNext, hEq⟩ := Option.map_eq_some_iff.mp hAction
    cases hEq
    exact hTurn d (Client.turn hNext)
  cases move with
  | begin command arguments =>
    cases h
    exact .inl ⟨command, arguments, rfl, rfl⟩
  | advance seq => exact .inr (.inl ⟨seq, advance?_turn h⟩)
  | wait seq limit =>
    obtain ⟨z, hWait, hEq⟩ := Option.map_eq_some_iff.mp h
    cases hEq
    unfold wait? at hWait
    split at hWait
    · rename_i command hCaller
      cases hWait
      exact .inr (.inl ⟨seq, _, _, .waited hCaller, rfl⟩)
    · cases hWait
  | expire seq =>
    have hExpire : x.expire? seq = some (y, entries) := h
    unfold expire? at hExpire
    split at hExpire
    · rename_i command limit hCaller hPoll
      cases hExpire
      exact .inr (.inl ⟨seq, _, _, .expired hCaller (by simp [Client.result?, hPoll]), rfl⟩)
    · cases hExpire
  | drop seq =>
    obtain ⟨z, hDrop, hEq⟩ := Option.map_eq_some_iff.mp h
    cases hEq
    unfold drop? at hDrop
    split at hDrop
    · rename_i command hCaller
      cases hDrop
      exact .inr (.inl ⟨seq, _, _, .dropped (.inl ⟨_, hCaller⟩), rfl⟩)
    · rename_i command limit hCaller
      cases hDrop
      exact .inr (.inl ⟨seq, _, _, .dropped (.inr ⟨_, _, hCaller⟩), rfl⟩)
    · cases hDrop
  | loop => exact .inr (.inr (loop?_aside h))
  | abort =>
    obtain ⟨rfl, rfl⟩ := Prod.mk.inj (Option.some.inj h)
    exact .inr (.inr x.abort_aside)
  | takeEvent => exact .inr (.inr (hAside h fun d hTurn => by cases hTurn; exact .event))
  | missEvent => exact .inr (.inr (hAside h fun d hTurn => by cases hTurn; exact .noEvent))
  | dropSender => exact .inr (.inr (hAside h fun d hTurn => by cases hTurn; exact .closed))
  | transport happening =>
    exact .inr (.inr (hAside h fun d hTurn => by cases hTurn; exact .moved))

end Exchange
end EditorBridge.Adapter
