import EditorBridge.Proofs.Json.Decidable
import EditorBridge.Proofs.Rpc.Encoding
import EditorBridge.Proofs.Rpc.Flushing
import EditorBridge.Proofs.Rpc.Texts
import EditorBridge.Proofs.Session.Traffic
/-!
A client that answers the requests of its server from the settings of a session, while these are
changed by the host. The loop takes the messages of the server in one by one and acts on each in its
next turn. So the replies on their way are those to the requests among the messages that it has
acted on, in the order in which they came, each made from the settings that were stored then.
-/
namespace EditorBridge.Rpc

/-- The texts that are requests, and the request that each of them is. -/
theorem request?_eq_some_iff {m : String} {r : Request} :
    request? m = some r ↔ ∃ value, Json.parse m = .ok value ∧
      value.get? "jsonrpc" = some (.string r.jsonrpc) ∧ value.get? "id" = some r.id ∧
      r.id ≠ .null ∧ value.get? "method" = some (.string r.method) ∧
      (value.get? "params").bind Json.nonNull? = r.params := by
  have hRequest : request? m = some r ↔ Inbound.parse m = .ok (.request r) := by
    unfold request?
    split
    · simp [*]
    · rename_i hOther
      simpa using hOther r
  rw [hRequest, Inbound.parse]
  cases hParse : Json.parse m with
  | error fault => simp
  | ok value =>
    simpa using Inbound.ofJson_eq_request_iff (Json.canonical_of_parse hParse)

/-- Acting on a request of the server concerns no request of the client. -/
theorem Exchange.act_on_request {answer : Request → Response} {x : Exchange} {m : String}
    {r : Request} (hHeld : x.held = some m) (hRequest : request? m = some r) :
    (x.after (.own answer .loop)).client.pending = x.client.pending ∧
      (x.after (.own answer .loop)).stage = x.stage := by
  have hParse : Inbound.parse m = .ok (.request r) := by
    unfold request? at hRequest
    split at hRequest
    · rename_i hFound
      rw [hFound, Option.some.inj hRequest]
    · cases hRequest
  have hHandle : x.client.handle answer m = (x.client.write (answer r).text, []) := by
    simp only [Client.handle, Client.dispatch, hParse]
  have hPending : (x.client.write (answer r).text).pending = x.client.pending := by
    unfold Client.write
    split <;> rfl
  simp only [after, next?, loopStep?, hHeld, hHandle, Option.getD_some]
  exact ⟨hPending, rfl⟩

/-- After its turn the loop holds what it has taken in, if it was free to take something in. -/
theorem Exchange.held_after_loop (x : Exchange) (answer : Request → Response) :
    (x.after (.own answer .loop)).held.toList =
      match x.held with
      | some _ => []
      | none => x.client.inbound?.toList := by
  simp only [after, next?, loopStep?]
  cases hHeld : x.held with
  | some m =>
    have hNone := (tellAll_frame ({ x with client := (x.client.handle answer m).1, held := none } :
      Exchange) (x.client.handle answer m).2).2.1
    exact congrArg Option.toList hNone
  | none =>
    cases hInbound : x.client.inbound? with
    | some m => rfl
    | none =>
      simp only
      split
      · exact congrArg Option.toList ((wrapUp_held x).trans hHeld)
      · cases hStep : x.client.loopStep? answer with
        | none => exact congrArg Option.toList hHeld
        | some result =>
          have hNone :=
            (tellAll_frame ({ x with client := result.1, held := none } : Exchange) result.2).2.1
          exact congrArg Option.toList hNone

end EditorBridge.Rpc

namespace EditorBridge.Session

open Rpc (Course Said)

/-- What can happen to the client of a session and to the settings. -/
inductive ServiceStep where
  | store (settings : Json)
  | client (move : Rpc.Move)
  | outside (happening : Stream.Happening)

/-- The client is not stopped from outside, and the server does not go away. -/
def ServiceStep.Calm : ServiceStep → Prop
  | .client .abort => False
  | .client (.transport _) => False
  | .outside .breakOff => False
  | _ => True

theorem ServiceStep.Calm.of_client {move : Rpc.Move} (h : (ServiceStep.client move).Calm)
    (answer : Rpc.Request → Rpc.Response) : (Rpc.Step.own answer move).Calm := by
  cases move with
  | abort | transport => exact h.elim
  | _ => exact ⟨trivial, id⟩

theorem ServiceStep.Calm.of_outside {happening : Stream.Happening}
    (h : (ServiceStep.outside happening).Calm) : (Rpc.Step.outside happening).Calm := by
  cases happening with
  | breakOff => exact h.elim
  | _ => exact ⟨trivial, id⟩

/-- A message that the client has acted on, and the settings that were stored then. -/
structure Acted where
  message : String
  settings : Json

/-- The reply that was due. -/
def Acted.reply? (a : Acted) : Option Rpc.Response :=
  (Rpc.request? a.message).map (answer a.settings)

structure Service where
  settings : Json
  course : Course
  /-- The messages that the loop has taken in. -/
  received : List String
  acted : List Acted

namespace Service

def start (settings : Json) : Service := ⟨settings, .start, [], []⟩

/-- The message that is taken in with a move. -/
def takes (s : Service) : Rpc.Move → List String
  | .loop =>
    match s.course.now.held with
    | some _ => []
    | none => s.course.now.client.inbound?.toList
  | _ => []

/-- The message that is acted on with a move. -/
def acts (s : Service) : Rpc.Move → List Acted
  | .loop => s.course.now.held.toList.map (⟨·, s.settings⟩)
  | _ => []

def after (s : Service) : ServiceStep → Service
  | .store settings => { s with settings }
  | .client move =>
    ⟨s.settings, s.course.after (.own (answer s.settings) move), s.received ++ s.takes move,
      s.acted ++ s.acts move⟩
  | .outside happening => { s with course := s.course.after (.outside happening) }

def afterAll (s : Service) (steps : List ServiceStep) : Service := steps.foldl after s

/-- The steps of the course, with the settings from which requests are answered in each. -/
def courseSteps (s : Service) : List ServiceStep → List Rpc.Step
  | [] => []
  | .store settings :: rest => courseSteps (s.after (.store settings)) rest
  | .client move :: rest =>
    .own (answer s.settings) move :: courseSteps (s.after (.client move)) rest
  | .outside happening :: rest =>
    .outside happening :: courseSteps (s.after (.outside happening)) rest

variable {s : Service}

theorem course_afterAll (s : Service) (steps : List ServiceStep) :
    (s.afterAll steps).course = s.course.afterAll (s.courseSteps steps) := by
  induction steps generalizing s with
  | nil => rfl
  | cons step rest ih => cases step <;> exact ih _

theorem courseSteps_calm {steps : List ServiceStep} (h : ∀ step ∈ steps, step.Calm) :
    ∀ step ∈ s.courseSteps steps, step.Calm := by
  induction steps generalizing s with
  | nil => simp [courseSteps]
  | cons step rest ih =>
    have hRest := ih (s := s.after step) fun other hOther => h other (List.mem_cons_of_mem _ hOther)
    have hFirst := h step List.mem_cons_self
    cases step with
    | store settings => exact hRest
    | client move =>
      intro other hOther
      rcases List.mem_cons.mp hOther with rfl | hLater
      · exact hFirst.of_client _
      · exact hRest other hLater
    | outside happening =>
      intro other hOther
      rcases List.mem_cons.mp hOther with rfl | hLater
      · exact hFirst.of_outside
      · exact hRest other hLater

/-- What was taken in was acted on, but for the message that is held, and all replies are due. -/
structure Tallied (s : Service) : Prop where
  received : s.received = s.acted.map Acted.message ++ s.course.now.held.toList
  replies : s.course.replies = s.acted.filterMap Acted.reply?

theorem tallied_start (settings : Json) : (start settings).Tallied := ⟨rfl, rfl⟩

theorem Tallied.after (h : s.Tallied) {step : ServiceStep} (hCalm : step.Calm) :
    (s.after step).Tallied := by
  cases step with
  | store settings => exact ⟨h.received, h.replies⟩
  | outside happening =>
    refine ⟨h.received, ?_⟩
    exact (List.append_nil _).trans h.replies
  | client move =>
    by_cases hLoop : move = .loop
    · subst hLoop
      have hHeld := s.course.now.held_after_loop (answer s.settings)
      refine ⟨?_, ?_⟩
      · show s.received ++ s.takes .loop = (s.acted ++ s.acts .loop).map _ ++
          (s.course.now.after _).held.toList
        rw [hHeld, h.received]
        cases hNow : s.course.now.held <;> simp [takes, acts, hNow]
      · show s.course.replies ++ _ = (s.acted ++ s.acts .loop).filterMap _
        rw [h.replies, List.filterMap_append]
        cases hNow : s.course.now.held with
        | none => simp [acts, Rpc.Exchange.replies, hNow]
        | some m =>
          cases hRequest : Rpc.request? m <;>
            simp [acts, Rpc.Exchange.replies, hNow, Acted.reply?, hRequest]
    · have hOwn : (Rpc.Step.own (answer s.settings) move).Calm := hCalm.of_client _
      have hHeld := (Rpc.Exchange.caller_frame (x := s.course.now) hOwn hLoop).held
      have hNothing : s.takes move = [] ∧ s.acts move = [] ∧
          s.course.now.replies (.own (answer s.settings) move) = [] := by
        cases move <;> first | exact absurd rfl hLoop | exact ⟨rfl, rfl, rfl⟩
      refine ⟨?_, ?_⟩
      · show s.received ++ s.takes move = (s.acted ++ s.acts move).map _ ++
          (s.course.now.after _).held.toList
        rw [hNothing.1, hNothing.2.1, hHeld, List.append_nil, List.append_nil, h.received]
      · show s.course.replies ++ _ = (s.acted ++ s.acts move).filterMap _
        rw [hNothing.2.1, hNothing.2.2, List.append_nil, List.append_nil, h.replies]

theorem Tallied.afterAll (h : s.Tallied) {steps : List ServiceStep}
    (hCalm : ∀ step ∈ steps, step.Calm) : (s.afterAll steps).Tallied := by
  induction steps generalizing s with
  | nil => exact h
  | cons step rest ih =>
    exact ih (h.after (hCalm step List.mem_cons_self)) fun other hOther =>
      hCalm other (List.mem_cons_of_mem _ hOther)

end Service

/-- What is found in a settings tree reads back where the tree does. -/
theorem readsBack_lookup {tree : Json} {depth : Nat} (h : tree.ReadsBack depth) (section_ : String) :
    (Settings.lookup tree section_).ReadsBack depth := by
  have hDescend : ∀ (names : List String) (tree : Json), tree.ReadsBack depth →
      ((Settings.descend? tree names).getD .null).ReadsBack depth := by
    intro names
    induction names with
    | nil => exact fun tree h => h
    | cons name rest ih =>
      intro tree h
      rw [Settings.descend?]
      cases hPart : tree.get? name with
      | none => exact ⟨trivial, trivial⟩
      | some part => exact ih part (h.get? hPart)
  exact hDescend (Settings.names section_) tree h

/-- What is written of a reply is read as its members, if what it is made from reads back. -/
theorem isRecord_answer {tree : Json} {r : Rpc.Request} (hTree : tree.ReadsBack 2)
    (hId : r.id.ReadsBack 1) : Json.IsRecord (answer tree r).text (answer tree r).entries := by
  have hFailure : ∀ (code : Rpc.ErrorCode) (message : String),
      Json.IsRecord (Rpc.Response.failure r.id code message).text
        (Rpc.Response.failure r.id code message).entries := by
    intro code message
    apply Rpc.Response.isRecord_text hId
    · simp [Rpc.Response.failure]
    · intro e hError
      obtain rfl := Option.some.inj hError
      exact ⟨code.value_bounds, by simp⟩
  have hSuccess : ∀ result : Json, result.ReadsBack 1 →
      Json.IsRecord (Rpc.Response.success r.id result).text
        (Rpc.Response.success r.id result).entries := by
    intro result hResult
    apply Rpc.Response.isRecord_text hId
    · rintro v ⟨⟩
      exact hResult
    · simp [Rpc.Response.success]
  unfold answer
  split
  · split
    · rename_i request hRead
      apply hSuccess
      apply Json.readsBack_array (by decide)
      intro v hMem
      obtain ⟨item, -, rfl⟩ := List.mem_map.mp hMem
      unfold SettingsItem.answer
      split
      · exact readsBack_lookup hTree _
      · exact hTree
    · exact hFailure _ _
  · split
    · exact hSuccess .null ⟨trivial, trivial⟩
    · exact hFailure _ _

/-- The text of the identity stands in the reply. -/
theorem answer_text (tree : Json) (r : Rpc.Request) : ∃ more, (answer tree r).text =
    "\x7b\"jsonrpc\":\"2.0\",\"id\":" ++ r.id.text ++ more := by
  have hVersion : "\x7b\"jsonrpc\":" ++ (Json.string "2.0").text ++ ",\"id\":" =
      "\x7b\"jsonrpc\":\"2.0\",\"id\":" := by
    apply String.toList_inj.mp
    rw [String.toList_append, String.toList_append, Json.toList_text_string, Json.stringChars_eq]
    decide
  obtain ⟨more, hText⟩ := (answer tree r).text_id
  rw [answer_id, answer_jsonrpc, hVersion] at hText
  exact ⟨more, hText⟩

/-- As long as the connection is up, the replies on their way to the server are those to the
requests among the messages that the client has acted on, one for each in the order in which the
messages came. The messages that it has acted on are those that it has taken in, but for one that
it acts on in its next turn; acting on a request leaves the pending calls of the client and their
callers alone, even one with the same identity. Every reply has the identity of its request, and
one to a request for settings has an entry for each item from the settings that were stored then.
So it is written: the text of the identity stands in that of the reply, whatever it is, and where
the identity and the settings read back, the peer reads an object with this identity and result. -/
theorem requests_answered_in_order {settings : Json} {steps : List ServiceStep}
    (hCalm : ∀ step ∈ steps, step.Calm) {s : Service}
    (hSteps : s = (Service.start settings).afterAll steps)
    (hUp : s.course.now.client.phase = .running) :
    (∃ said : List Said,
      s.course.read ++ (s.course.now.transport.wire ++ s.course.now.transport.outbox) =
        said.map Said.frame ∧
      s.course.taken = said.filterMap Said.own? ++ s.course.now.client.accepted ∧
      said.filterMap Said.reply? = s.acted.filterMap Acted.reply?) ∧
    s.received = s.acted.map Acted.message ++ s.course.now.held.toList ∧
    (∀ m, s.course.now.held = some m →
      (s.after (.client .loop)).acted = s.acted ++ [⟨m, s.settings⟩] ∧
      ∀ r, Rpc.request? m = some r →
        (s.after (.client .loop)).course.now.client.pending = s.course.now.client.pending ∧
        (s.after (.client .loop)).course.now.stage = s.course.now.stage) ∧
    (∀ m r, Rpc.request? m = some r ↔ ∃ value, Json.parse m = .ok value ∧
      value.get? "jsonrpc" = some (.string r.jsonrpc) ∧ value.get? "id" = some r.id ∧
      r.id ≠ .null ∧ value.get? "method" = some (.string r.method) ∧
      (value.get? "params").bind Json.nonNull? = r.params) ∧
    (∀ tree r, (answer tree r).id = r.id ∧
      (∃ more, (answer tree r).text = "\x7b\"jsonrpc\":\"2.0\",\"id\":" ++ r.id.text ++ more) ∧
      (tree.ReadsBack 2 → r.id.ReadsBack 1 → Json.IsRecord (answer tree r).text
        [("jsonrpc", some (.string "2.0")), ("id", some r.id), ("result", (answer tree r).result),
          ("error", (answer tree r).error.map (·.toJson))])) ∧
    ∀ m r tree sections, Rpc.request? m = some r → AsksFor r sections →
      answer tree r = .success r.id (.array (sections.map (settingOf tree))) ∧
      (tree.ReadsBack 2 → r.id.ReadsBack 1 → Json.IsRecord (answer tree r).text
        [("jsonrpc", some (.string "2.0")), ("id", some r.id),
          ("result", some (.array (sections.map (settingOf tree))))]) := by
  subst hSteps
  have hTallied := (Service.tallied_start settings).afterAll hCalm
  have hSound : ((Service.start settings).afterAll steps).course.Sound := by
    rw [Service.course_afterAll] at hUp ⊢
    exact Course.sound_start.afterAll (Service.courseSteps_calm hCalm) hUp
  refine ⟨?_, hTallied.received, ?_, fun m r => Rpc.request?_eq_some_iff, fun tree r =>
    ⟨answer_id tree r, answer_text tree r, fun hTree hId => ?_⟩, ?_⟩
  · obtain ⟨said, hWay, hTaken, hReplies⟩ := hSound.way
    exact ⟨said, hWay, hTaken, hReplies.symm.trans hTallied.replies⟩
  · intro m hHeld
    refine ⟨?_, fun r hRequest => Rpc.Exchange.act_on_request hHeld hRequest⟩
    show _ ++ Service.acts _ .loop = _
    simp [Service.acts, hHeld]
  · have hEntries := isRecord_answer hTree hId
    rwa [Rpc.Response.entries, answer_id, answer_jsonrpc] at hEntries
  · intro m r tree sections hRequest hAsks
    have hAnswer : answer tree r = .success r.id (.array (sections.map (settingOf tree))) := by
      apply answer_of_asksFor (fun params hParams => ?_) hAsks
      obtain ⟨value, hParse, -, -, -, -, hFound⟩ := Rpc.request?_eq_some_iff.mp hRequest
      obtain ⟨part, hPart, hNonNull⟩ := Option.bind_eq_some_iff.mp (hFound.trans hParams)
      exact Json.eq_of_nonNull? hNonNull ▸ (Json.canonical_of_parse hParse).get? hPart
    refine ⟨hAnswer, fun hTree hId => ?_⟩
    have hEntries := isRecord_answer hTree hId
    rw [hAnswer] at hEntries ⊢
    exact Json.IsRecord.of_concat_none "error" hEntries

def laterSettings : Json := .object [("java", .object [("format", .bool true)])]

/-- The server asks for settings under the identity of a call of the client that it has not
answered, and the settings are stored between its message and the answer. -/
def askedMeanwhile : List ServiceStep :=
  [.client (.begin "first" (.ok none)), .client (.advance 1), .client .loop,
    .outside (.arrive (Utf8.encode (Frame.encode
      "\x7b\"id\":1,\"jsonrpc\":\"2.0\",\"method\":\"workspace/configuration\",
        \"params\":\x7b\"items\":[\x7b\"section\":\"java..format\"\x7d,\x7b\x7d]\x7d\x7d").toList)),
    .client .loop, .client .loop, .store laterSettings, .client .loop]

def servedMeanwhile : Service := (Service.start .null).afterAll askedMeanwhile

/-- The reply that is due, with the identity and the settings as the server reads them. -/
def dueReply : String :=
  "\x7b\"jsonrpc\":\"2.0\",\"id\":1,\"result\":[true,\x7b\"java\":\x7b\"format\":true\x7d\x7d]\x7d"

theorem servedMeanwhile_shown :
    (servedMeanwhile.course.now.client.phase, servedMeanwhile.course.now.client.pending,
      (servedMeanwhile.acted.filterMap Acted.reply?).map fun r => (r.id, r.result, r.text)) =
      (.running, [1], [(.int 1, some (.array [.bool true, laterSettings]), dueReply)]) := by
  decide +kernel

theorem servedMeanwhile_answered :
    servedMeanwhile.course.now.client.pending = [1] ∧
      ∃ said : List Said, servedMeanwhile.course.read ++
          (servedMeanwhile.course.now.transport.wire ++
            servedMeanwhile.course.now.transport.outbox) = said.map Said.frame ∧
        (said.filterMap Said.reply?).map (fun r => (r.id, r.result, r.text)) =
          [(.int 1, some (.array [.bool true, laterSettings]), dueReply)] := by
  have hCalm : ∀ step ∈ askedMeanwhile, step.Calm := by simp [askedMeanwhile, ServiceStep.Calm]
  have hShown := servedMeanwhile_shown
  simp only [Prod.mk.injEq] at hShown
  obtain ⟨hUp, hPending, hDue⟩ := hShown
  obtain ⟨⟨said, hFrames, -, hReplies⟩, -⟩ :=
    requests_answered_in_order (s := servedMeanwhile) hCalm rfl hUp
  refine ⟨hPending, said, hFrames, ?_⟩
  rw [hReplies]
  exact hDue

end EditorBridge.Session
