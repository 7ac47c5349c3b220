import EditorBridge.Proofs.Rpc.Noise
import EditorBridge.Proofs.Rpc.Pending
/-!
Requests come to their end, with two exceptions. A request is owed an end from when its message is
taken until a response with its number, the end of its time or the end of the connection reaches it.
The table of pending calls holds the requests that are owed one, and behind the end of the
connection nobody waits, exactly if two things never happen: that a text which is no object is read
as the response to an open call, and that a request is taken when the loop has given up the calls
and still holds its end of the queue. The caller of such a request waits until its time is over.
-/
namespace EditorBridge.Rpc
namespace Exchange

/-- A move, with what there was before it and what came of it. -/
structure Stride where
  before : Exchange
  move : Move
  after : Exchange

/-- The moves of a client and its callers one after the other, with all that they passed through. -/
inductive History (answer : Request → Response) (x : Exchange) : List Stride → Exchange → Prop where
  | start : History answer x [] x
  | step {trace : List Stride} {y z : Exchange} {move : Move} (prior : History answer x trace y)
      (last : y.next? answer move = some z) : History answer x (trace ++ [⟨y, move, z⟩]) z

/-- What comes of given moves one after the other, if each of them can happen. -/
def trail? (answer : Request → Response) (x : Exchange) : List Move → Option (List Stride × Exchange)
  | [] => some ([], x)
  | move :: rest =>
    match x.next? answer move with
    | none => none
    | some y => (trail? answer y rest).map fun (trace, z) => (⟨x, move, y⟩ :: trace, z)

namespace Stride

/-- Is the message of this request taken? -/
def sends (id : Nat) (s : Stride) : Bool :=
  match s.move, s.before.stage id with
  | .advance other, .entering _ => other == id && s.before.client.refusal?.isNone
  | _, _ => false

/-- Does the loop act on an object that is the response to this request? -/
def answers (id : Nat) (s : Stride) : Bool :=
  match s.move, s.before.held with
  | .loop, some m => !isNoise m && (Rpc.answers id m).isSome
  | _, _ => false

/-- Is the time of this request over? -/
def expires (id : Nat) (s : Stride) : Bool :=
  match s.move with
  | .expire other => other == id
  | _ => false

/-- Does the connection end? The loop gives up the calls then, or it is stopped from outside. -/
def ends (s : Stride) : Bool :=
  match s.move with
  | .abort => true
  | _ => !s.before.emptied && s.after.emptied

def releases (id : Nat) (s : Stride) : Bool := s.answers id || s.expires id || s.ends

/-- Is this request taken when the calls have been given up? -/
def belated (id : Nat) (s : Stride) : Bool := s.before.emptied && s.sends id

/-- Does the loop take a text that is no object for the response to this request? -/
def misread (id : Nat) (s : Stride) : Bool :=
  match s.move, s.before.held, s.before.stage id with
  | .loop, some m, .waiting => isNoise m && (Rpc.answers id m).isSome
  | _, _, _ => false

end Stride

/-- Is a request owed an end: has its message been taken, and nothing released it since? -/
def owed (id : Nat) (trace : List Stride) : Bool :=
  trace.foldl (fun owed s => s.sends id || owed && !s.releases id) false

/-- What callers may rely on: at every moment the table holds the requests that are owed an end, but
for callers that are about to take their numbers out, and from the end of the connection on nothing
is taken, nobody waits and the table is empty. -/
structure Kept (trace : List Stride) : Prop where
  exact : ∀ earlier s later, trace = earlier ++ s :: later → ∀ id, ¬ (s.after.stage id).Leaving →
    (id ∈ s.after.client.pending ↔ owed id (earlier ++ [s]) = true)
  refuses : ∀ s ∈ trace, s.before.emptied = true → ∀ id, s.sends id = false
  settled : ∀ s ∈ trace, s.after.emptied = true → (∀ id, s.after.stage id ≠ .waiting) ∧
    ((∀ id, ¬ (s.after.stage id).Leaving) → s.after.client.pending = [])

variable {answer : Request → Response} {x y z : Exchange} {id : Nat} {move : Move} {s : Stride}
  {trace earlier later : List Stride}

theorem owed_concat : owed id (trace ++ [s]) = (s.sends id || owed id trace && !s.releases id) := by
  rw [owed, List.foldl_append]
  rfl

theorem History.cons (hStep : x.next? answer move = some y) (hRest : History answer y trace z) :
    History answer x (⟨x, move, y⟩ :: trace) z := by
  induction hRest with
  | start => exact .step .start hStep
  | step prior last ih => exact .step ih last

theorem history_of_trail? {moves : List Move} (h : x.trail? answer moves = some (trace, y)) :
    History answer x trace y := by
  induction moves generalizing x trace with
  | nil =>
    cases h
    exact .start
  | cons move rest ih =>
    unfold trail? at h
    split at h
    · cases h
    · rename_i z hStep
      obtain ⟨⟨more, w⟩, hRest, hEnd⟩ := Option.map_eq_some_iff.mp h
      cases hEnd
      exact .cons hStep (ih hRest)

theorem History.run (h : History answer x trace y) : Run answer x y := by
  induction h with
  | start => exact .start
  | step prior last ih => exact .step ih last

/-- A stride of a history can be made where the moves before it have led. -/
theorem History.cut (h : History answer x trace y) (hTrace : trace = earlier ++ s :: later) :
    History answer x earlier s.before ∧ s.before.next? answer s.move = some s.after := by
  induction h generalizing later with
  | start => simp at hTrace
  | @step trace y z move prior last ih =>
    rcases List.eq_nil_or_concat later with rfl | ⟨front, t, rfl⟩
    · obtain ⟨rfl, hLast⟩ := List.append_inj' hTrace rfl
      obtain rfl := List.singleton_inj.mp hLast
      exact ⟨prior, last⟩
    · have hFront : trace ++ [⟨y, move, z⟩] = (earlier ++ s :: front) ++ [t] := by simpa using hTrace
      exact ih (List.append_inj' hFront rfl).1

theorem History.orderly {transport : Stream.Transport}
    (h : History answer (create transport) trace x) : Orderly x := h.run.orderly

/-- A request is sent by what its own caller does, as long as messages are taken. -/
theorem sends_iff : s.sends id = true ↔
    s.move = .advance id ∧ (∃ text, s.before.stage id = .entering text) ∧
      s.before.client.refusal? = none := by
  unfold Stride.sends
  split
  · rename_i other text hMove hStage
    simp [hMove, hStage]
  · rename_i hOther
    simp only [Bool.false_eq_true, false_iff]
    rintro ⟨hMove, ⟨text, hStage⟩, -⟩
    exact hOther id text hMove hStage

theorem answers_iff : s.answers id = true ↔ s.move = .loop ∧
    ∃ m r, s.before.held = some m ∧ isNoise m = false ∧ Rpc.answers id m = some r := by
  unfold Stride.answers
  split
  · rename_i m hMove hHeld
    simp [hMove, hHeld, Option.isSome_iff_exists]
  · rename_i hOther
    simp only [Bool.false_eq_true, false_iff]
    rintro ⟨hMove, m, r, hHeld, -⟩
    exact hOther m hMove hHeld

theorem misread_iff : s.misread id = true ↔ s.move = .loop ∧ s.before.stage id = .waiting ∧
    ∃ m r, s.before.held = some m ∧ isNoise m = true ∧ Rpc.answers id m = some r := by
  unfold Stride.misread
  split
  · rename_i m hMove hHeld hStage
    simp [hMove, hHeld, hStage, Option.isSome_iff_exists]
  · rename_i hOther
    simp only [Bool.false_eq_true, false_iff]
    rintro ⟨hMove, hStage, m, r, hHeld, -⟩
    exact hOther m hMove hHeld hStage

theorem expires_iff : s.expires id = true ↔ s.move = .expire id := by
  unfold Stride.expires
  split
  · simp_all
  · rename_i hOther
    simp only [Bool.false_eq_true, false_iff]
    exact hOther id

theorem ends_iff : s.ends = true ↔
    s.move = .abort ∨ s.before.emptied = false ∧ s.after.emptied = true := by
  unfold Stride.ends
  split <;> simp_all

/-- Acting on a message gives up no calls. -/
theorem emptied_of_held {m : String} (hHeld : x.held = some m)
    (hStep : x.next? answer .loop = some y) : y.emptied = x.emptied := by
  simp only [next?, loopStep?, hHeld] at hStep
  obtain rfl := Option.some.inj hStep
  exact (tellAll_frame ..).2.2

/-- A caller whose message is taken waits. -/
theorem next_sends (hStep : x.next? answer move = some y)
    (hSends : (⟨x, move, y⟩ : Stride).sends id = true) : y.stage id = .waiting := by
  obtain ⟨hMove, ⟨text, hStage⟩, hRefusal⟩ := sends_iff.mp hSends
  obtain rfl : move = .advance id := hMove
  cases hStep.symm.trans (advance?_taken hStage hRefusal)
  exact set_stage_self ..

/-- Nobody begins to wait otherwise. -/
theorem sends_of_waiting (h : Orderly x) (hStep : x.next? answer move = some y)
    (hBefore : x.stage id ≠ .waiting) (hAfter : y.stage id = .waiting) :
    (⟨x, move, y⟩ : Stride).sends id = true := by
  obtain ⟨text, hStage, rfl, -⟩ := next_sent h hStep hBefore hAfter
  refine sends_iff.mpr ⟨rfl, ⟨text, hStage⟩, ?_⟩
  cases hRefusal : x.client.refusal? with
  | none => rfl
  | some refusal =>
    cases hStep.symm.trans (advance?_refused hStage hRefusal)
    rw [set_stage_self] at hAfter
    cases hAfter

/-- Who waits and is released waits no more. -/
theorem next_releases (h : Orderly x) (hStep : x.next? answer move = some y)
    (hWaiting : x.stage id = .waiting) (hReleases : (⟨x, move, y⟩ : Stride).releases id = true) :
    y.stage id ≠ .waiting := by
  simp only [Stride.releases, Bool.or_eq_true] at hReleases
  rcases hReleases with (hAnswers | hExpires) | hEnds
  · obtain ⟨rfl, m, r, hHeld, -, hAnswer⟩ := answers_iff.mp hAnswers
    obtain ⟨z, hLoop, hTold⟩ := next_answered h hHeld hWaiting hAnswer
    cases hStep.symm.trans hLoop
    rw [hTold]
    exact Stage.noConfusion
  · obtain rfl : move = .expire id := expires_iff.mp hExpires
    obtain rfl := Option.some.inj hStep
    rw [expire_waiting hWaiting, set_stage_self]
    exact Stage.noConfusion
  · have hTold : y.stage id = .told .cancelled := by
      rcases ends_iff.mp hEnds with hMove | ⟨hFirst, hEmptied⟩
      · obtain rfl : move = .abort := hMove
        obtain rfl := Option.some.inj hStep
        exact h.cancelled _ hWaiting
      · exact (next_emptied h hStep hFirst hEmptied).2 id hWaiting
    rw [hTold]
    exact Stage.noConfusion

/-- Who waits and is not released goes on waiting, unless a text is misread. -/
theorem next_owed (h : Orderly x) (hStep : x.next? answer move = some y)
    (hWaiting : x.stage id = .waiting) (hReleases : (⟨x, move, y⟩ : Stride).releases id = false)
    (hRead : (⟨x, move, y⟩ : Stride).misread id = false) : y.stage id = .waiting := by
  simp only [Stride.releases, Bool.or_eq_false_iff] at hReleases
  obtain ⟨⟨hAnswers, hExpires⟩, hEnds⟩ := hReleases
  rcases next_waiting h hStep hWaiting with hStill | ⟨hMove, -⟩ | ⟨m, r, hMove, hHeld, hAnswer, -⟩ |
    ⟨hEmptied, hWhy, -⟩
  · exact hStill
  · rw [expires_iff.mpr hMove] at hExpires
    cases hExpires
  · cases hNoise : isNoise m with
    | true =>
      rw [misread_iff.mpr ⟨hMove, hWaiting, m, r, hHeld, hNoise, hAnswer⟩] at hRead
      cases hRead
    | false =>
      rw [answers_iff.mpr ⟨hMove, m, r, hHeld, hNoise, hAnswer⟩] at hAnswers
      cases hAnswers
  · rw [ends_iff.mpr (hWhy.imp_right fun hFirst => ⟨hFirst, hEmptied⟩)] at hEnds
    cases hEnds

/-- Who waits after a stride is owed an end, if this was so before. -/
theorem owed_concat_of_waiting (h : Orderly x) (hStep : x.next? answer move = some y)
    (hBefore : x.stage id = .waiting → owed id trace = true) (hAfter : y.stage id = .waiting) :
    owed id (trace ++ [⟨x, move, y⟩]) = true := by
  rw [owed_concat]
  by_cases hWaiting : x.stage id = .waiting
  · have hReleases : (⟨x, move, y⟩ : Stride).releases id = false :=
      Bool.eq_false_iff.mpr fun hNow => next_releases h hStep hWaiting hNow hAfter
    simp [hBefore hWaiting, hReleases]
  · simp [sends_of_waiting h hStep hWaiting hAfter]

theorem History.owed {transport : Stream.Transport} (h : History answer (create transport) trace x)
    (hWaiting : x.stage id = .waiting) : owed id trace = true := by
  induction h with
  | start => cases hWaiting
  | step prior last ih => exact owed_concat_of_waiting prior.orderly last ih hWaiting

/-- All who are owed an end wait, and nobody behind the end of the connection. -/
structure Truthful (x : Exchange) (trace : List Stride) : Prop where
  owed : ∀ id, owed id trace = true → x.stage id = .waiting
  settled : x.emptied = true → ∀ id, x.stage id ≠ .waiting

theorem truthful_create (transport : Stream.Transport) : Truthful (create transport) [] where
  owed _ h := nomatch h
  settled h := nomatch h

/-- A stride that is neither belated nor misread leaves the callers with what they are owed. -/
theorem Truthful.next (h : Truthful x trace) (hOrderly : Orderly x)
    (hStep : x.next? answer move = some y)
    (hSound : ∀ id, (⟨x, move, y⟩ : Stride).belated id = false ∧
      (⟨x, move, y⟩ : Stride).misread id = false) :
    Truthful y (trace ++ [⟨x, move, y⟩]) where
  owed id hOwed := by
    rw [owed_concat] at hOwed
    cases hSends : (⟨x, move, y⟩ : Stride).sends id with
    | true => exact next_sends hStep hSends
    | false =>
      rw [hSends, Bool.false_or, Bool.and_eq_true, Bool.not_eq_true'] at hOwed
      exact next_owed hOrderly hStep (h.owed id hOwed.1) hOwed.2 (hSound id).2
  settled hEmptied id hAfter := by
    by_cases hBefore : x.stage id = .waiting
    · cases hFirst : x.emptied with
      | true => exact h.settled hFirst id hBefore
      | false =>
        rw [(next_emptied hOrderly hStep hFirst hEmptied).2 id hBefore] at hAfter
        cases hAfter
    · have hSends := sends_of_waiting hOrderly hStep hBefore hAfter
      -- A caller that goes on gives up no calls, so they had been given up before.
      have hBelated : (⟨x, move, y⟩ : Stride).belated id = true := by
        rcases next_phase hOrderly hStep with ⟨-, hSame⟩ | ⟨-, -, -, hMove, -⟩ | ⟨hMove, -⟩
        · simp [Stride.belated, ← hSame, hEmptied, hSends]
        · cases hMove.symm.trans (sends_iff.mp hSends).1
        · cases hMove.symm.trans (sends_iff.mp hSends).1
      rw [(hSound id).1] at hBelated
      cases hBelated

theorem History.truthful {transport : Stream.Transport}
    (h : History answer (create transport) trace x)
    (hSound : ∀ s ∈ trace, ∀ id, s.belated id = false ∧ s.misread id = false) :
    Truthful x trace := by
  induction h with
  | start => exact truthful_create transport
  | step prior last ih =>
    have hBefore := ih fun s hs => hSound s (List.mem_append_left _ hs)
    exact hBefore.next prior.orderly last (hSound _ (List.mem_append_right _ List.mem_cons_self))

theorem History.kept {transport : Stream.Transport} (h : History answer (create transport) trace x)
    (hSound : ∀ s ∈ trace, ∀ id, s.belated id = false ∧ s.misread id = false) : Kept trace := by
  have hAfter {earlier later : List Stride} {s : Stride} (hTrace : trace = earlier ++ s :: later) :
      History answer (create transport) (earlier ++ [s]) s.after ∧
        Truthful s.after (earlier ++ [s]) := by
    obtain ⟨hEarlier, hStep⟩ := h.cut hTrace
    have hHere : History answer (create transport) (earlier ++ [s]) s.after := .step hEarlier hStep
    refine ⟨hHere, hHere.truthful fun t ht => hSound t ?_⟩
    rw [hTrace, ← List.singleton_append, ← List.append_assoc]
    exact List.mem_append_left _ ht
  constructor
  · intro earlier s later hTrace id hStays
    obtain ⟨hHere, hTruthful⟩ := hAfter hTrace
    constructor
    · exact fun hMem => hHere.owed ((hHere.orderly.known id hMem).resolve_right hStays)
    · exact fun hOwed => hHere.orderly.entered id (hTruthful.owed id hOwed)
  · intro s hs hEmptied id
    have hBelated := (hSound s hs id).1
    rwa [Stride.belated, hEmptied, Bool.true_and] at hBelated
  · intro s hs hEmptied
    obtain ⟨earlier, later, hTrace⟩ := List.append_of_mem hs
    obtain ⟨hHere, hTruthful⟩ := hAfter hTrace
    have hNobody := hTruthful.settled hEmptied
    refine ⟨hNobody, fun hStaying => List.eq_nil_iff_forall_not_mem.mpr fun id => ?_⟩
    exact hHere.orderly.not_mem rfl (hNobody id) (hStaying id)

/-- A request whose answer is misread is out of the table, and still owed an end. -/
theorem History.not_kept_of_misread {transport : Stream.Transport}
    (h : History answer (create transport) trace x) (hs : s ∈ trace)
    (hMisread : s.misread id = true) : ¬ Kept trace := by
  intro hKept
  obtain ⟨earlier, later, hTrace⟩ := List.append_of_mem hs
  obtain ⟨hEarlier, hStep⟩ := h.cut hTrace
  have hOrderly := hEarlier.orderly
  obtain ⟨hMove, hWaiting, m, r, hHeld, hNoise, hAnswer⟩ := misread_iff.mp hMisread
  rw [hMove] at hStep
  -- A text that is no object does not release the request from waiting.
  have hReleases : s.releases id = false := by
    have hAnswers : s.answers id = false := by
      simp [Stride.answers, hMove, hHeld, hNoise]
    have hExpires : s.expires id = false := by simp [Stride.expires, hMove]
    have hEnds : s.ends = false := by
      simp [Stride.ends, hMove, emptied_of_held hHeld hStep]
    simp [Stride.releases, hAnswers, hExpires, hEnds]
  obtain ⟨z, hLoop, hTold⟩ := next_answered hOrderly hHeld hWaiting hAnswer
  cases hStep.symm.trans hLoop
  have hOut : id ∉ s.after.client.pending :=
    (next_orderly hOrderly hStep).not_mem hTold Stage.noConfusion not_false
  refine hOut ((hKept.exact earlier s later hTrace id ?_).mpr ?_)
  · rw [hTold]
    exact not_false
  · rw [owed_concat, hEarlier.owed hWaiting, hReleases]
    simp

/-- Requests come to their end. In every run, with callers and the loop suspended anywhere, the table
tells who waits, a request that is not sent leaves it as it was, and the loop that leaves the
connection gives up the calls and then lets go of the queue. At every moment the table holds exactly
the requests that are owed an end, and none behind the end of the connection, exactly if no text that
is no object is read as the response to an open call, and no request is taken when the calls have
been given up. Such a request is stranded: it waits until its time is over. -/
theorem pending_calls_settle_iff {transport : Stream.Transport}
    (h : History answer (create transport) trace x) :
    (Tallied answer x ∧ Spared answer x ∧ Concluded answer x) ∧
    (Kept trace ↔ ∀ s ∈ trace, ∀ id, s.belated id = false ∧ s.misread id = false) ∧
    ∀ id, x.emptied = true → x.stage id = .waiting → ∀ move y, x.next? answer move = some y →
      move ≠ .abort → y.stage id = .waiting ∨ move = .expire id ∧ y.stage id = .late := by
  refine ⟨⟨h.orderly.tallied, h.orderly.spared, h.orderly.concluded⟩, ⟨fun hKept s hs id => ?_,
    h.kept⟩, fun id hEmptied hWaiting move y hStep hGoesOn => ?_⟩
  · constructor
    · cases hEmptied : s.before.emptied with
      | false => rw [Stride.belated, hEmptied, Bool.false_and]
      | true => rw [Stride.belated, hKept.refuses s hs hEmptied id, Bool.and_false]
    · exact Bool.eq_false_iff.mpr fun hMisread => h.not_kept_of_misread hs hMisread hKept
  · rcases next_waiting h.orderly hStep hWaiting with hStill | hLate | ⟨m, -, -, hHeld, -⟩ |
      ⟨-, hWhy, -⟩
    · exact .inl hStill
    · exact .inr hLate
    · exact absurd (h.orderly.holding (by simp [hHeld])) (h.orderly.left hEmptied)
    · rcases hWhy with hAbort | hFirst
      · exact absurd hAbort hGoesOn
      · rw [hEmptied] at hFirst
        cases hFirst

/-- A call is sent, and the stream ends before it is answered. A second one is made, and its message
is taken when the loop has given up the first and not let go of the queue. -/
def takenAtEnd : Option (List Stride × Exchange) :=
  (create .fresh).trail? unknowing
    [.begin "first" (.ok none), .advance 1, .loop, .begin "second" (.ok none),
      .transport (·.deliverEnd), .loop, .loop, .advance 2, .loop]

/-- A call is sent, and an array arrives that is read as its response. -/
def answeredByArray : Option (List Stride × Exchange) :=
  (create .fresh).trail? unknowing
    [.begin "m" (.ok none), .advance 1, .loop,
      .transport (·.deliver (Utf8.encode (Frame.encode forged).toList)), .loop, .loop, .loop]

theorem takenAtEnd_shown :
    takenAtEnd.map (fun (trace, x) => (trace.map (·.belated 2), x.client.phase, x.client.pending,
      x.emptied, x.stage 1 matches .told .cancelled, x.stage 2 matches .waiting)) =
      some ([false, false, false, false, false, false, false, true, false], .ended, [2], true, true,
        true) := by
  decide +kernel

theorem answeredByArray_shown :
    answeredByArray.map (fun (trace, x) => (trace.map (·.misread 1), x.client.pending,
      x.client.nextId, x.stage 0 matches .unused, x.stage 1 matches .told (.answered _),
      owed 1 trace)) =
      some ([false, false, false, false, false, false, true], [], 2, true, true, true) := by
  decide +kernel

/-- The caller of the second request waits when all is over. -/
theorem takenAtEnd_stranded :
    ∃ trace x, takenAtEnd = some (trace, x) ∧ ¬ Kept trace ∧ x.client.phase = .ended ∧
      x.stage 2 = .waiting ∧ x.client.pending = [2] ∧
      ∀ move y, x.next? unknowing move = some y → move ≠ .abort →
        y.stage 2 = .waiting ∨ move = .expire 2 ∧ y.stage 2 = .late := by
  obtain ⟨⟨trace, x⟩, hEval, hShown⟩ := Option.map_eq_some_iff.mp takenAtEnd_shown
  simp only [Prod.mk.injEq] at hShown
  obtain ⟨hBelated, hEnded, hPending, hEmptied, -, hSecond⟩ := hShown
  obtain ⟨-, hIff, hStranded⟩ := pending_calls_settle_iff (history_of_trail? hEval)
  have hWaiting : x.stage 2 = .waiting := by
    split at hSecond
    · assumption
    · cases hSecond
  refine ⟨trace, x, hEval, fun hKept => ?_, hEnded, hWaiting, hPending,
    hStranded 2 hEmptied hWaiting⟩
  have hTrue : true ∈ trace.map (·.belated 2) := by
    rw [hBelated]
    decide
  obtain ⟨s, hs, hLate⟩ := List.mem_map.mp hTrue
  rw [(hIff.mp hKept s hs 2).1] at hLate
  cases hLate

/-- Requests do not always come to their end as they should: an array ends one that is owed an end
still, and another is taken at the end of the loop and left waiting. -/
theorem requests_left_unsettled :
    ¬ (∀ trace x, History unknowing (create .fresh) trace x → (∀ id, ¬ (x.stage id).Leaving) →
        ∀ id, id ∈ x.client.pending ↔ owed id trace = true) ∧
    ¬ ∀ trace x, History unknowing (create .fresh) trace x → x.client.phase = .ended →
        (∀ id, x.stage id ≠ .waiting) ∧ x.client.pending = [] := by
  constructor
  · intro hAlways
    obtain ⟨⟨trace, x⟩, hEval, hShown⟩ := Option.map_eq_some_iff.mp answeredByArray_shown
    simp only [Prod.mk.injEq] at hShown
    obtain ⟨-, hPending, hNext, hZeroth, hFirst, hOwed⟩ := hShown
    have hHistory := history_of_trail? hEval
    have hStaying : ∀ id, ¬ (x.stage id).Leaving
      | 0 => by split at hZeroth <;> simp_all [Stage.Leaving]
      | 1 => by split at hFirst <;> simp_all [Stage.Leaving]
      | id + 2 => by
        rw [hHistory.orderly.fresh (id + 2) (by omega)]
        exact not_false
    have hMem := (hAlways trace x hHistory hStaying 1).mpr hOwed
    rw [hPending] at hMem
    cases hMem
  · intro hAlways
    obtain ⟨⟨trace, x⟩, hEval, hShown⟩ := Option.map_eq_some_iff.mp takenAtEnd_shown
    simp only [Prod.mk.injEq] at hShown
    obtain ⟨-, hEnded, hPending, -⟩ := hShown
    obtain ⟨-, hNone⟩ := hAlways trace x (history_of_trail? hEval) hEnded
    rw [hPending] at hNone
    cases hNone

end Exchange
end EditorBridge.Rpc
