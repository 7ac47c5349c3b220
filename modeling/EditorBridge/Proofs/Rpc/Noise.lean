import EditorBridge.Proofs.Json.Items
import EditorBridge.Proofs.Rpc.Correlation
import EditorBridge.Proofs.Rpc.Outward
/-!
Texts that are no objects. Such a text asks nothing and tells nothing, but an array is handed to the
reader of responses like an object, and so it can end an open call. Every passage of a client is
compared with the one in which these texts never come: both show the same, exactly if none of the
texts ends a call. And they can be put in wherever the loop looks for what has arrived without
changing anything else, exactly if none of them is read as the response to a call open there.
-/
namespace EditorBridge.Rpc

/-- Is the text no object of JSON: no JSON at all, a scalar or an array? -/
def isNoise (text : String) : Bool :=
  match Json.parse text with
  | .ok (.object _) => false
  | _ => true

/-- The trace without the receptions of the texts that are left out. -/
def without (left : String → Bool) (trace : List Entry) : List Entry :=
  trace.filter fun
    | .received m => !left m
    | _ => true

/-- One of the texts that are left out ends a call. -/
def Settles (left : String → Bool) (trace : List Entry) : Prop :=
  ∃ before m id r after, left m = true ∧
    trace = before ++ .received m :: .brought (.finished id (.answered r)) :: after

variable {left : String → Bool} {m : String} {trace first second : List Entry}

theorem without_append :
    without left (first ++ second) = without left first ++ without left second :=
  List.filter_append ..

theorem without_sublist : (without left trace).Sublist trace := List.filter_sublist

theorem without_of_messages_eq_nil (h : messages trace = []) : without left trace = trace := by
  refine List.filter_eq_self.mpr fun e hMem => ?_
  cases e with
  | received m =>
    have hReceived : m ∈ messages trace := List.mem_filterMap.mpr ⟨_, hMem, rfl⟩
    simp [h] at hReceived
  | _ => rfl

theorem without_received (hKept : left m = false) (h : messages trace = []) :
    without left (.received m :: trace) = .received m :: trace := by
  rw [← List.singleton_append, without_append, without_of_messages_eq_nil h]
  simp [without, hKept]

theorem without_left (hLeft : left m = true) : without left [.received m] = [] := by
  simp [without, hLeft]

/-- Without any text left out, the trace is the whole one. -/
theorem without_none (trace : List Entry) : without (fun _ => false) trace = trace :=
  List.filter_eq_self.mpr fun e _ => by cases e <;> rfl

theorem Settles.append (h : Settles left first) (second : List Entry) :
    Settles left (first ++ second) := by
  obtain ⟨before, m, id, r, after, hLeft, rfl⟩ := h
  exact ⟨before, m, id, r, after ++ second, hLeft, by simp⟩

theorem parse_of_isNoise (h : isNoise m = true) {inbound : Inbound}
    (hParse : Inbound.parse m = .ok inbound) :
    ∃ value r, Json.parse m = .ok value ∧ (∀ members, value ≠ .object members) ∧
      Response.read .tree (Document.ofJson value) = .ok r ∧ inbound = .response r := by
  unfold Inbound.parse at hParse
  split at hParse
  · cases hParse
  · rename_i value hJson
    have hNone : ∀ members, value ≠ .object members := by
      rintro members rfl
      simp [isNoise, hJson] at h
    have hGet (key : String) : value.get? key = none := by
      unfold Json.get?
      split
      · exact absurd rfl (hNone _)
      · rfl
    simp only [Inbound.ofJson, hGet, Option.bind_none, Decoded.map_eq_ok_iff] at hParse
    obtain ⟨r, hRead, rfl⟩ := hParse
    exact ⟨value, r, hJson, hNone, hRead, rfl⟩

/-- Behind its number, nothing changes the number of a response that is read. -/
theorem read_keeps_id {field : RecordField Response}
    (h : field ∈ (Response.shape .tree).fields.drop 2) {r r' : Response} {d : Document}
    (hRead : field.read r d = .ok r') : r'.id = r.id := by
  have hFields : (Response.shape .tree).fields.drop 2 = [_, _] := rfl
  rw [hFields] at h
  simp only [List.mem_cons, List.not_mem_nil, or_false] at h
  rcases h with rfl | rfl <;>
    · obtain ⟨_, -, hSet⟩ := Decoded.bind_eq_ok_iff.mp hRead
      obtain rfl := Except.ok.inj hSet
      rfl

/-- A response that is read from no object is read from an array of two to four items, of which the
second is the number of the call. -/
theorem array_of_read {value : Json} {r : Response} {id : Nat}
    (hNone : ∀ members, value ≠ .object members)
    (hRead : Response.read .tree (Document.ofJson value) = .ok r) (hId : r.id.nat? = some id) :
    ∃ version rest, value = .array (.string version :: .nat id :: rest) ∧ rest.length ≤ 2 := by
  cases value with
  | object members => exact absurd rfl (hNone members)
  | null | bool | number | string =>
    simp [Response.read, RecordShape.read, Document.ofJson, Document.wrongType, Document.found]
      at hRead
  | array items =>
    simp only [Response.read, RecordShape.read, Document.ofJson] at hRead
    obtain ⟨⟨r', more⟩, hItems, hRest⟩ := Decoded.bind_eq_ok_iff.mp hRead
    obtain ⟨rfl, rfl⟩ : more = [] ∧ r' = r := by
      cases more <;> simp_all
    rcases items with _ | ⟨x, _ | ⟨y, rest⟩⟩
    · exact absurd hItems (RecordShape.readItems_nil_ne (by simp))
    · obtain ⟨acc, -, hRest⟩ := RecordShape.readItems_cons hItems
      exact absurd hRest (RecordShape.readItems_nil_ne (by simp))
    · obtain ⟨first, hFirst, hItems⟩ := RecordShape.readItems_cons hItems
      obtain ⟨second, hSecond, hItems⟩ := RecordShape.readItems_cons hItems
      obtain ⟨hSame, hLength⟩ :=
        RecordShape.readItems_keeps (·.id) (fun _ h _ _ _ => read_keeps_id h) hItems
      obtain ⟨version, hVersion, -⟩ := Decoded.bind_eq_ok_iff.mp hFirst
      obtain ⟨read, hNumber, hSet⟩ := Decoded.bind_eq_ok_iff.mp hSecond
      obtain rfl := Except.ok.inj hSet
      have hString : x.string? = some version := by
        rw [← Document.readText_ofJson, hVersion, Decoded.toOption_ok]
      rw [hSame] at hId
      obtain rfl := Json.string?_eq_some_iff.mp hString
      obtain rfl := Document.eq_nat_of_readAny hNumber hId
      rw [Document.length_ofJsonItems] at hLength
      exact ⟨version, rest, rfl, hLength⟩

/-- A text that answers a call and is no object is an array with the number of the call in the
second place. -/
theorem array_of_answers (h : isNoise m = true) {id : Nat} {r : Response}
    (hAnswers : answers id m = some r) :
    ∃ version rest, Json.parse m = .ok (.array (.string version :: .nat id :: rest)) ∧
      rest.length ≤ 2 := by
  unfold answers at hAnswers
  split at hAnswers
  · rename_i r' hParse
    obtain ⟨value, r'', hJson, hNone, hRead, hSame⟩ := parse_of_isNoise h hParse
    obtain rfl := Inbound.response.inj hSame
    split at hAnswers
    · rename_i hId
      obtain ⟨version, rest, rfl, hLength⟩ := array_of_read hNone hRead hId
      exact ⟨version, rest, hJson, hLength⟩
    · cases hAnswers
  · cases hAnswers

namespace Client

variable {answer : Request → Response} {c d e : Client} {event : Event} {entries : List Entry}
  {heard heard' : List String}

/-- A text that is no object and answers no open call does nothing. -/
theorem handle_noise (h : isNoise m = true) (hNone : ∀ id ∈ c.pending, answers id m = none) :
    c.handle answer m = (c, []) := by
  cases hParse : Inbound.parse m with
  | error fault => simp only [handle, dispatch, hParse]
  | ok inbound =>
    obtain ⟨-, r, -, -, -, rfl⟩ := parse_of_isNoise h hParse
    cases hId : r.id.nat? with
    | none => simp only [handle, dispatch, hParse, hId]
    | some id =>
      have hClosed : id ∉ c.pending := fun hOpen => by
        simpa [answers, hParse, hId] using hNone id hOpen
      simp [handle, dispatch, hParse, hId, hClosed]

theorem messages_of_deaf (hDeaf : event = .loop → ¬ c.Listens)
    (h : c.next? answer event = some (d, entries)) : messages entries = [] := by
  cases event with
  | call method params =>
    simp only [next?] at h
    split at h <;> obtain ⟨-, rfl⟩ := Prod.mk.inj (Option.some.inj h) <;> rfl
  | notify | dropSender | transport =>
    obtain ⟨-, rfl⟩ := Prod.mk.inj (Option.some.inj h)
    rfl
  | expire | abort =>
    obtain ⟨-, rfl⟩ := Prod.mk.inj (Option.some.inj h)
    exact messages_map_brought _
  | loop =>
    obtain ⟨⟨e, effects⟩, -, hSame⟩ := Option.map_eq_some_iff.mp h
    obtain ⟨-, rfl⟩ := Prod.mk.inj hSame
    rw [inbound?_of_not_listens (hDeaf rfl)]
    exact messages_map_brought effects

/-- A step of a client, and what its twin does that is spared some texts that are no objects and
answer no open call. -/
theorem Twin.step {c' : Client} (h : Twin c d) (hIntact : c.Intact)
    (hLeft : ∀ m, left m = true → isNoise m = true) (hOwn : event.isOwn = true)
    (hStep : c.next? answer event = some (c', entries))
    (hNone : ∀ m, .received m ∈ entries → left m = true → ∀ id ∈ c.pending, answers id m = none) :
    ∃ d', Passage answer d (without left entries) [] d' ∧ Twin c' d' := by
  by_cases hDeaf : event = .loop → ¬ c.Listens
  · obtain ⟨d', hNext, hTwin⟩ := h.own hOwn hDeaf hStep
    rw [without_of_messages_eq_nil (messages_of_deaf hDeaf hStep)]
    exact ⟨d', .single hOwn hNext, hTwin⟩
  · obtain ⟨rfl, hListens⟩ : event = .loop ∧ c.Listens := by simpa using hDeaf
    obtain ⟨hHears, -⟩ := hears_of_listens hIntact hListens hStep
    obtain ⟨d', hPassage, hTwin⟩ := h.hears hIntact hListens hHears
    cases hHears with
    | text => exact ⟨d', hPassage, hTwin⟩
    | failed => exact ⟨d', hPassage, hTwin⟩
    | @message m connection effects hSize hSame hHandle =>
      cases hSpared : left m with
      | false =>
        rw [without_received hSpared (messages_map_brought effects)]
        exact ⟨d', hPassage, hTwin⟩
      | true =>
        have hNothing : ({ c with connection } : Client).handle answer m = (_, []) :=
          handle_noise (hLeft m hSpared) (hNone m (List.mem_cons_self ..) hSpared)
        obtain ⟨rfl, rfl⟩ := Prod.mk.inj (hHandle.symm.trans hNothing)
        rw [List.map_nil, without_left hSpared]
        refine ⟨d, .start, h.same.trans ?_, h.dry⟩
        simp only [outward, hSame]

/-- A passage in which none of the texts that are left out ends a call goes the same way without
them. -/
theorem Passage.spared {c' : Client} (h : Passage answer c trace heard c') (hTwin : Twin c d)
    (hIntact : c.Intact) (hLeft : ∀ m, left m = true → isNoise m = true)
    (hQuiet : ¬ Settles left trace) :
    ∃ d', Passage answer d (without left trace) heard d' ∧ Twin c' d' := by
  induction h with
  | start => exact ⟨d, .start, hTwin⟩
  | @own trace entries _ f _ _ prior hOwn last ih =>
    obtain ⟨e, hPassage, hTwin⟩ := ih fun h => hQuiet (h.append entries)
    have hNone (m : String) (hReceived : .received m ∈ entries) (hSpared : left m = true) :
        ∀ id ∈ f.pending, answers id m = none := by
      rcases received_effect last hReceived with ⟨hNone, -⟩ | ⟨id, r, -, -, -, rfl⟩
      · exact hNone
      · exact absurd ⟨trace, m, id, r, [], hSpared, rfl⟩ hQuiet
    obtain ⟨d', hStep, hTwin'⟩ := hTwin.step (prior.intact hIntact) hLeft hOwn last hNone
    have hAll := hPassage.trans hStep
    rw [← without_append, List.append_nil] at hAll
    exact ⟨d', hAll, hTwin'⟩
  | outside _ happening ih =>
    obtain ⟨e, hPassage, hTwin⟩ := ih hQuiet
    obtain ⟨d', hStep, hTwin'⟩ := hTwin.outside happening
    have hAll := hPassage.trans hStep
    rw [List.append_nil] at hAll
    exact ⟨d', hAll, hTwin'⟩

/-- A twin can go the same way. -/
theorem Passage.mirrored {c' : Client} (h : Passage answer c trace heard c') (hTwin : Twin c d)
    (hIntact : c.Intact) : ∃ d', Passage answer d trace heard d' ∧ Twin c' d' := by
  have hQuiet : ¬ Settles (fun _ => false) trace := by
    rintro ⟨_, _, _, _, _, hLeft, -⟩
    cases hLeft
  have hSpared := h.spared hTwin hIntact (fun m hLeft => by cases hLeft) hQuiet
  rwa [without_none] at hSpared

end Client

theorem Silent.without {id : Nat} (h : Silent id trace) : Silent id (without left trace) :=
  fun e hMem => h e (without_sublist.subset hMem)

theorem Silent.opens {id : Nat} (h : Silent id trace) : ∀ e ∈ trace, e.opens id = false :=
  fun e hMem => (h e hMem).1

theorem Silent.ends {id : Nat} (h : Silent id trace) : ∀ e ∈ trace, e.ends id = false :=
  fun e hMem => (h e hMem).2

/-- A list is parted in one way only in front of the first element of a kind. -/
theorem split_first {α : Type} {p : α → Bool} {before before' after after' : List α} {e e' : α}
    (hBefore : ∀ x ∈ before, p x = false) (hBefore' : ∀ x ∈ before', p x = false) (he : p e = true)
    (he' : p e' = true) (h : before ++ e :: after = before' ++ e' :: after') :
    before = before' ∧ e = e' ∧ after = after' := by
  induction before generalizing before' with
  | nil =>
    cases before' with
    | nil => simpa using h
    | cons x before' =>
      obtain ⟨rfl, -⟩ := List.cons.inj h
      simp [hBefore' e (List.mem_cons_self ..)] at he
  | cons x before ih =>
    cases before' with
    | nil =>
      obtain ⟨rfl, -⟩ := List.cons.inj h
      simp [hBefore x (List.mem_cons_self ..)] at he'
    | cons x' before' =>
      obtain ⟨rfl, hRest⟩ := List.cons.inj h
      obtain ⟨rfl, hSame⟩ :=
        ih (List.forall_mem_cons.mp hBefore).2 (List.forall_mem_cons.mp hBefore').2 hRest
      exact ⟨rfl, hSame⟩

/-- The message in front of an end that is an answer is the first one heard that answers the
call. -/
theorem Fate.in_front {id : Nat} {c : Client} {r : Response} (h : Fate id c trace)
    (hTrace : trace = first ++ .received m :: .brought (.finished id (.answered r)) :: second) :
    ∃ before between, first = before ++ .sent id :: between ∧ Unanswered id between ∧
      Silent id before ∧ Silent id between := by
  have hEnd : .brought (.finished id (.answered r)) ∈ trace := by simp [hTrace]
  obtain ⟨before, between, m', r', after, hOutcome, hSplit, -, hNone, hBefore, hBetween, -⟩ :=
    h.answered hEnd (by simp) (by simp)
  obtain rfl := Outcome.answered.inj hOutcome
  have hFirst : ∀ e ∈ first ++ [.received m], e.ends id = false := by
    have hOnce := h.countP_ends_le
    have hZero : first.countP (·.ends id) = 0 := by
      simp only [hTrace, List.countP_append, List.countP_cons, Entry.ends_finished,
        beq_self_eq_true, if_true] at hOnce
      omega
    refine List.forall_mem_append.mpr ⟨fun e hMem => ?_, by simp⟩
    simpa using List.countP_eq_zero.mp hZero e hMem
  have hOpened : ∀ e ∈ before ++ .sent id :: between ++ [.received m'], e.ends id = false := by
    simp only [List.forall_mem_append, List.forall_mem_cons]
    exact ⟨⟨hBefore.ends, rfl, hBetween.ends⟩, by simp⟩
  have hSame : first ++ [.received m] ++ .brought (.finished id (.answered r)) :: second =
      before ++ .sent id :: between ++ [.received m'] ++
        .brought (.finished id (.answered r)) :: after := by
    simpa using hTrace.symm.trans hSplit
  have hFront := (split_first hFirst hOpened (by simp) (by simp) hSame).1
  exact ⟨before, between, List.append_inj_left' hFront rfl, hNone, hBefore, hBetween⟩

/-- A call that a left-out text has ended does not end that way in a run without these texts. -/
theorem not_settles {answer : Request → Response} {transport transport' : Stream.Transport}
    {c d : Client} (hRun : Client.Run answer (.create transport) trace c)
    (hTwin : Client.Run answer (.create transport') (without left trace) d) :
    ¬ Settles left trace := by
  rintro ⟨first, m, id, r, later, hLeft, hTrace⟩
  obtain ⟨before, between, rfl, hNone, hBefore, hBetween⟩ := (hRun.fate id).in_front hTrace
  have hWithout : without left trace = without left before ++ .sent id ::
      (without left between ++ .brought (.finished id (.answered r)) :: without left later) := by
    rw [hTrace]
    simp [without, List.filter_append, hLeft]
  have hEnd : .brought (.finished id (.answered r)) ∈ without left trace := by simp [hWithout]
  obtain ⟨before', between', m', r', after', hOutcome, hSplit, hAnswers, -, hBefore', hBetween',
    -⟩ := (hTwin.fate id).answered hEnd (by simp) (by simp)
  obtain rfl := Outcome.answered.inj hOutcome
  obtain ⟨-, -, hRest⟩ := split_first hBefore.without.opens hBefore'.opens (by simp) (by simp)
    (hWithout.symm.trans hSplit)
  have hHeard : ∀ e ∈ between' ++ [.received m'], e.ends id = false :=
    List.forall_mem_append.mpr ⟨hBetween'.ends, by simp⟩
  have hSame : without left between ++ .brought (.finished id (.answered r)) :: without left later =
      between' ++ [.received m'] ++ .brought (.finished id (.answered r)) :: after' := by
    simpa using hRest
  -- Without the text, another one in front of it would have answered the call before.
  have hOther := (split_first hBetween.without.ends hHeard (by simp) (by simp) hSame).1
  have hMem : .received m' ∈ without left between := by simp [hOther]
  have hSilent := hNone m' (List.mem_filterMap.mpr ⟨_, without_sublist.subset hMem, rfl⟩)
  rw [hAnswers] at hSilent
  cases hSilent

namespace Client

variable {answer : Request → Response} {c d : Client} {noise : List String} {id : Nat}

/-- Where the loop looks for what has arrived, texts that do nothing can come. -/
theorem Twin.inserted (h : Twin c d) (hIntact : c.Intact) (hListens : c.Listens)
    (hNoise : ∀ n ∈ noise, isNoise n = true ∧ n.utf8ByteSize ≤ Frame.maxSize)
    (hNone : ∀ n ∈ noise, ∀ id ∈ c.pending, answers id n = none) :
    ∃ d', Passage answer d (noise.map .received) [] d' ∧ Twin c d' := by
  induction noise generalizing d with
  | nil => exact ⟨d, .start, h⟩
  | cons n noise ih =>
    obtain ⟨⟨hFirst, hSize⟩, hNoise⟩ := List.forall_mem_cons.mp hNoise
    obtain ⟨hSilent, hNone⟩ := List.forall_mem_cons.mp hNone
    have hNothing : ({ c with connection := c.connection } : Client).handle answer n = (c, []) :=
      handle_noise hFirst hSilent
    obtain ⟨e, hPassage, hTwin⟩ := h.hears hIntact hListens (.message hSize rfl hNothing)
    obtain ⟨d', hRest, hTwin'⟩ := ih hTwin hNoise hNone
    exact ⟨d', hPassage.trans hRest, hTwin'⟩

/-- No run begins with a call that is answered, because the answer is received in the same step. -/
theorem Run.head_ne_answered {r : Response} (h : Run answer c trace d) :
    trace.head? ≠ some (.brought (.finished id (.answered r))) := by
  induction h with
  | start => simp
  | @step trace entries _ _ _ _ last ih =>
    have hEntries : entries.head? ≠ some (.brought (.finished id (.answered r))) := by
      cases next_change last with
      | quiet | sent | refused | expired | passed | answered => simp
      | ended => simp [cancelAll]
    rw [List.head?_append]
    cases hHead : trace.head? with
    | none => exact hEntries
    | some entry =>
      rw [hHead] at ih
      exact ih

end Client

@[simp] theorem messages_map_received (texts : List String) :
    messages (texts.map .received) = texts := by
  induction texts with
  | nil => rfl
  | cons text texts ih => simp [ih]

/-- What was heard since a call was sent does not answer it, if it has not ended so far and the trace
does not go on with its answer. -/
theorem Fate.unanswered {id : Nat} {c : Client} {before waited rest : List Entry}
    (h : Fate id c trace) (hTrace : trace = before ++ .sent id :: (waited ++ rest))
    (hBefore : Silent id before) (hWaited : Silent id waited)
    (hRest : ∀ r, rest.head? ≠ some (.brought (.finished id (.answered r)))) :
    Unanswered id waited := by
  have hSent : .sent id ∈ trace := by simp [hTrace]
  cases h with
  | unused hSilent => exact absurd (hSilent _ hSent).1 (by simp)
  | refused error hBefore' hAfter =>
    simp only [List.mem_append, List.mem_cons, reduceCtorEq, false_or] at hSent
    rcases hSent with hSent | hSent
    · exact absurd (hBefore' _ hSent).1 (by simp)
    · exact absurd (hAfter _ hSent).1 (by simp)
  | waiting hBefore' _ _ hNone =>
    obtain ⟨-, -, rfl⟩ := split_first hBefore'.opens hBefore.opens (by simp) (by simp) hTrace
    exact (unanswered_append.mp hNone).1
  | @finished before' between after o hBefore' hBetween hAfter hUsed hPending hReason =>
    obtain ⟨-, -, hSame⟩ := split_first hBefore'.opens hBefore.opens (by simp) (by simp) hTrace
    -- The end stands behind what is silent.
    obtain ⟨more, rfl, rfl⟩ : ∃ more, between = waited ++ more ∧
        rest = more ++ .brought (.finished id o) :: after := by
      rcases List.append_eq_append_iff.mp hSame with ⟨more, hSplit, hEnd⟩ | hBehind
      · cases more with
        | nil => exact ⟨[], by simpa using hSplit.symm, hEnd.symm⟩
        | cons entry more =>
          obtain ⟨rfl, -⟩ := List.cons.inj hEnd
          have hEnds := hWaited.ends (.brought (.finished id o)) (by simp [hSplit])
          simp at hEnds
      · exact hBehind
    cases hReason with
    | timedOut hNone | cancelled hNone => exact (unanswered_append.mp hNone).1
    | @answered earlier m r hSplit hAnswers hNone =>
      rcases List.eq_nil_or_concat' more with rfl | ⟨more, last, rfl⟩
      · exact absurd rfl (hRest r)
      · rw [← List.append_assoc] at hSplit
        obtain rfl := List.append_inj_left' hSplit rfl
        exact (unanswered_append.mp hNone).1

/-- If texts can be put in behind `first`, none of them answers a call that is open there. -/
theorem unanswered_of_inserted {answer : Request → Response}
    {transport transport' : Stream.Transport} {c d e : Client} {noise : List String}
    (hFirst : Client.Run answer (.create transport) first c)
    (hSecond : Client.Run answer c second d)
    (hAll : Client.Run answer (.create transport') (first ++ noise.map .received ++ second) e) :
    ∀ n ∈ noise, ∀ id ∈ c.pending, answers id n = none := by
  intro n hNoise id hOpen
  cases hFirst.fate id with
  | unused _ hPending | refused _ _ _ _ hPending | finished _ _ _ _ hPending =>
    exact absurd hOpen hPending
  | @waiting before after hBefore hAfter _ _ =>
    have hSilent : Silent id (after ++ noise.map .received) := by
      refine silent_append.mpr ⟨hAfter, fun e hMem => ?_⟩
      obtain ⟨n, -, rfl⟩ := List.mem_map.mp hMem
      exact ⟨rfl, rfl⟩
    have hNone := (hAll.fate id).unanswered (by simp) hBefore hSilent fun r =>
      hSecond.head_ne_answered
    exact hNone n (by simp [hNoise])

/-- A new client can go through a passage with this trace, in which the peer reads these texts, and
come to show what `c` shows. -/
def Shows (answer : Request → Response) (trace : List Entry) (heard : List String) (c : Client) :
    Prop :=
  ∃ d, Client.Passage answer (.create .fresh) trace heard d ∧ d.outward = c.outward

/-- When texts that are no objects do nothing. Whichever of them are left out, a passage is possible
without them as it was, with the same trace, the same texts to the peer and the same open calls,
exactly if none of them ends a call in it. Wherever the loop looks for what has arrived, any number
of them can be put in, with the same passage before and behind them, exactly if none of them is read
as the response to a call that is open there. And only an array of two to four items is read so, of
which the first is a string and the second the number of the call. -/
theorem texts_inert_iff (answer : Request → Response) :
    (∀ left trace heard c, (∀ m, left m = true → isNoise m = true) →
      Client.Passage answer (.create .fresh) trace heard c →
      (Shows answer (without left trace) heard c ↔ ¬ Settles left trace)) ∧
    (∀ first heard c second heard' d, Client.Passage answer (.create .fresh) first heard c →
      Client.Passage answer c second heard' d → c.Listens →
      ∀ noise : List String, (∀ n ∈ noise, isNoise n = true ∧ n.utf8ByteSize ≤ Frame.maxSize) →
      (Shows answer (first ++ noise.map .received ++ second) (heard ++ heard') d ↔
        ∀ n ∈ noise, ∀ id ∈ c.pending, answers id n = none)) ∧
    ∀ n id r, isNoise n = true → answers id n = some r →
      ∃ version rest, Json.parse n = .ok (.array (.string version :: .nat id :: rest)) ∧
        rest.length ≤ 2 := by
  have hFresh : Client.Twin (.create .fresh) (.create .fresh) := ⟨rfl, fun _ => rfl⟩
  refine ⟨?_, ?_, fun n id r hNoise hAnswers => array_of_answers hNoise hAnswers⟩
  · intro left trace heard c hLeft hPassage
    constructor
    · rintro ⟨d, hTwin, -⟩
      exact not_settles hPassage.run hTwin.run
    · intro hQuiet
      obtain ⟨d, hTwin, hSame⟩ := hPassage.spared hFresh Client.intact_create hLeft hQuiet
      exact ⟨d, hTwin, hSame.same⟩
  · intro first heard c second heard' d hFirst hSecond hListens noise hNoise
    constructor
    · rintro ⟨e, hAll, -⟩
      exact unanswered_of_inserted hFirst.run hSecond.run hAll.run
    · intro hNone
      have hIntact := hFirst.intact Client.intact_create
      obtain ⟨c', hBefore, hTwin⟩ := hFirst.mirrored hFresh Client.intact_create
      obtain ⟨c'', hInserted, hTwin'⟩ := hTwin.inserted hIntact hListens hNoise hNone
      obtain ⟨e, hBehind, hSame⟩ := hSecond.mirrored hTwin' hIntact
      have hAll := (hBefore.trans hInserted).trans hBehind
      rw [List.append_nil] at hAll
      exact ⟨e, hAll, hSame.same⟩

/-- A call is sent and written. -/
def awaitingAnswer : List Act := [.own (.call "m" none), .own .loop]

/-- A text arrives in one piece, and the loop takes it. -/
def takes (text : String) : List Act :=
  [.outside (.arrive (Utf8.encode (Frame.encode text).toList)), .own .loop, .own .loop]

/-- An array that is read as the response to another call, a scalar, and what is no JSON. -/
def strays : List String := ["[\"2.0\",7,\"stray\"]", "4", "\x7b"]

/-- An array that is read as the response to call 1. -/
def forged : String := "[\"2.0\",1,\"forged\"]"

/-- A client that knows none of the requests of its server. -/
def unknowing (r : Request) : Response := .methodNotFound r.id r.method

def passage (acts : List Act) : Option (List Entry × List String × Client) :=
  (Client.create .fresh).pass? unknowing acts

/-- What a passage shows: the messages taken, how many effects they have, the open calls, and
whether the loop looks for more. -/
def display (passed : List Entry × List String × Client) : List String × Nat × List Nat × Bool :=
  (messages passed.1, passed.1.countP (· matches .brought _), passed.2.2.pending,
    decide passed.2.2.Listens)

/-- The strays change nothing of what is shown but the messages taken. -/
theorem strays_shown :
    (passage awaitingAnswer).map display = some ([], 0, [1], true) ∧
    (passage (awaitingAnswer ++ strays.flatMap takes)).map display =
      some (strays, 0, [1], true) := by
  decide +kernel

/-- None of the strays is the answer to call 1, and the forged array is. -/
theorem texts_shown :
    (∀ n ∈ strays, isNoise n = true ∧ (answers 1 n).isNone = true) ∧
    isNoise forged = true ∧ (answers 1 forged).isSome = true := by
  decide +kernel

theorem texts_fit : ∀ n ∈ forged :: strays, n.utf8ByteSize ≤ Frame.maxSize := by
  decide

/-- The strays can be left out where they came, and they can be put in while a call is open that is
given up later. -/
theorem texts_inert_strays :
    ∃ trace heard c first heard' d,
      passage (awaitingAnswer ++ strays.flatMap takes) = some (trace, heard, c) ∧
      messages trace = strays ∧ Shows unknowing (without isNoise trace) heard c ∧
      passage awaitingAnswer = some (first, heard', d) ∧ d.pending = [1] ∧
      Shows unknowing (first ++ strays.map .received ++ (d.expire 1).2.map .brought) (heard' ++ [])
        (d.expire 1).1 ∧
      ∃ version rest, Json.parse forged = .ok (.array (.string version :: .nat 1 :: rest)) ∧
        rest.length ≤ 2 := by
  obtain ⟨⟨trace, heard, c⟩, hEval, hShown⟩ := Option.map_eq_some_iff.mp strays_shown.2
  obtain ⟨⟨first, heard', d⟩, hEval', hShown'⟩ := Option.map_eq_some_iff.mp strays_shown.1
  simp only [display, Prod.mk.injEq, decide_eq_true_eq] at hShown hShown'
  obtain ⟨hMessages, hEffects, -, -⟩ := hShown
  obtain ⟨-, -, hPending, hListens⟩ := hShown'
  obtain ⟨hLeftOut, hPutIn, hShape⟩ := texts_inert_iff unknowing
  have hQuiet : ¬ Settles isNoise trace := by
    rintro ⟨before, m, id, r, after, -, rfl⟩
    simp [List.countP_append] at hEffects
  have hExpire : d.next? unknowing (.expire 1) =
      some ((d.expire 1).1, (d.expire 1).2.map .brought) := rfl
  obtain ⟨hStrays, hNoise, hAnswers⟩ := texts_shown
  have hNone : ∀ n ∈ strays, ∀ id ∈ d.pending, answers id n = none := by
    simpa [hPending] using fun n hn => (hStrays n hn).2
  have hFit (n : String) (hn : n ∈ strays) : isNoise n = true ∧ n.utf8ByteSize ≤ Frame.maxSize :=
    ⟨(hStrays n hn).1, texts_fit n (List.mem_cons_of_mem _ hn)⟩
  obtain ⟨r, hForged⟩ := Option.isSome_iff_exists.mp hAnswers
  refine ⟨trace, heard, c, first, heard', d, hEval, hMessages, ?_, hEval', hPending, ?_, ?_⟩
  · exact (hLeftOut isNoise trace heard c (fun m h => h) (Client.passage_of_pass? hEval)).mpr hQuiet
  · exact (hPutIn first heard' d _ _ _ (Client.passage_of_pass? hEval') (.single rfl hExpire)
      hListens strays hFit).mpr hNone
  · exact hShape forged 1 r hNoise hForged

/-- A text that is no object can end an open call: where the forged array is put in, the call is not
open any more. -/
theorem array_ends_call :
    ¬ ∀ answer first heard c second heard' d,
      Client.Passage answer (.create .fresh) first heard c →
      Client.Passage answer c second heard' d → c.Listens →
      ∀ noise : List String, (∀ n ∈ noise, isNoise n = true ∧ n.utf8ByteSize ≤ Frame.maxSize) →
      Shows answer (first ++ noise.map .received ++ second) (heard ++ heard') d := by
  intro hAlways
  obtain ⟨⟨first, heard, c⟩, hEval, hShown⟩ := Option.map_eq_some_iff.mp strays_shown.1
  simp only [display, Prod.mk.injEq, decide_eq_true_eq] at hShown
  obtain ⟨-, -, hPending, hListens⟩ := hShown
  have hFirst := Client.passage_of_pass? hEval
  obtain ⟨-, hNoise, hSome⟩ := texts_shown
  obtain ⟨e, hAll, -⟩ := hAlways _ _ _ _ _ _ _ hFirst .start hListens [forged]
    (by simp [hNoise, texts_fit])
  have hNone := unanswered_of_inserted hFirst.run .start hAll.run forged
    (List.mem_singleton.mpr rfl) 1 (by simp [hPending])
  rw [hNone] at hSome
  cases hSome

end EditorBridge.Rpc
