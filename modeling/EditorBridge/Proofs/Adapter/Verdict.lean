import EditorBridge.Proofs.Adapter.Run
import Mathlib.Data.List.Nodup
/-!
What decides a request of a client: the first message since it was sent that answers it, the end of
the loop, or the end of the time that its caller would wait. The tables of a client keep up with
this for every request whose caller has not taken its result, whatever else happens.
-/
namespace EditorBridge.Adapter

/-- The answer to a request that a message carries. -/
def answer? (seq : Int) (text : String) : Option Response :=
  match Message.parse text with
  | .ok (.response r) => if r.requestSeq = seq then some r else none
  | _ => none

/-- What an entry says about the result of a request, if nothing has before. -/
def decision (seq : Int) : Entry → Option (Except CallError Response)
  | .received text _ => (answer? seq text).map Client.judge
  | .ended => some (.error .closed)
  | .expired number command limit =>
    if (number : Int) = seq then some (.error (.timeout command limit)) else none
  | _ => none

/-- Is the loop not to wait any more for the answer to a request? It has come, or will not come, or
the caller has returned without it. -/
def settles (seq : Int) : Entry → Bool
  | .received text _ => (answer? seq text).isSome
  | .ended => true
  | .returned number _ => (number : Int) == seq
  | _ => false

/-- Is the request with this number sent here? -/
def sends (seq : Int) : Entry → Bool
  | .sent r => r.seq == seq
  | _ => false

def wasSent (seq : Int) (trace : List Entry) : Bool := trace.any (sends seq)

/-- What a trace tells from the sending of a request on. -/
def since (seq : Int) (trace : List Entry) : List Entry := (trace.dropWhile (!sends seq ·)).tail

/-- The result of a request: what the first entry since it was sent says about it. -/
def verdict (seq : Int) (trace : List Entry) : Option (Except CallError Response) :=
  (since seq trace).findSome? (decision seq)

/-- Is a request that was sent still to be answered? -/
def isOutstanding (seq : Int) (trace : List Entry) : Bool :=
  wasSent seq trace && (since seq trace).all (!settles seq ·)

def outstanding (trace : List Entry) : List Request :=
  (sentRequests trace).filter (isOutstanding ·.seq trace)

section Trace

variable {seq : Int} {trace entries : List Entry}

theorem wasSent_append :
    wasSent seq (trace ++ entries) = (wasSent seq trace || wasSent seq entries) := List.any_append

theorem mem_sentRequests {r : Request} : r ∈ sentRequests trace ↔ .sent r ∈ trace := by
  simp only [sentRequests, List.mem_filterMap]
  constructor
  · rintro ⟨e, hMem, hSent⟩
    split at hSent
    · cases hSent
      exact hMem
    · cases hSent
  · intro hMem
    exact ⟨_, hMem, rfl⟩

theorem wasSent_iff : wasSent seq trace = true ↔ seq ∈ (sentRequests trace).map Request.seq := by
  simp only [wasSent, List.any_eq_true, List.mem_map, mem_sentRequests]
  constructor
  · rintro ⟨e, hMem, hSends⟩
    unfold sends at hSends
    split at hSends
    · rename_i r
      exact ⟨r, hMem, by simpa using hSends⟩
    · cases hSends
  · rintro ⟨r, hMem, hSeq⟩
    exact ⟨_, hMem, by simp [sends, hSeq]⟩

theorem wasSent_of_silent (h : sentRequests entries = []) : wasSent seq entries = false := by
  rw [← Bool.not_eq_true, wasSent_iff, h]
  simp

theorem since_append (h : wasSent seq trace = true) :
    since seq (trace ++ entries) = since seq trace ++ entries := by
  induction trace with
  | nil => cases h
  | cons e rest ih =>
    cases hFirst : sends seq e with
    | true => simp [since, hFirst]
    | false =>
      have hRest : wasSent seq rest = true := by simpa [wasSent, hFirst] using h
      simpa [since, List.dropWhile_cons, hFirst] using ih hRest

theorem since_of_unsent (h : wasSent seq trace = false) :
    since seq (trace ++ entries) = since seq entries := by
  have hAll : ∀ e ∈ trace, (!sends seq e) = true := by
    intro e hMem
    simpa using List.any_eq_false.mp h e hMem
  simp [since, List.dropWhile_append_of_pos hAll]

theorem verdict_append (h : wasSent seq trace = true) :
    verdict seq (trace ++ entries) =
      (verdict seq trace).or (entries.findSome? (decision seq)) := by
  simp [verdict, since_append h, List.findSome?_append]

/-- What is decided stays so. -/
theorem verdict_stays {result : Except CallError Response} (h : wasSent seq trace = true)
    (hVerdict : verdict seq trace = some result) :
    verdict seq (trace ++ entries) = some result := by
  rw [verdict_append h, hVerdict, Option.some_or]

/-- Only an answer with success is no error. -/
theorem verdict_success {r : Response} (h : verdict seq trace = some (.ok r)) :
    r.success = true := by
  obtain ⟨e, -, hDecision⟩ := List.exists_of_findSome?_eq_some h
  unfold decision at hDecision
  split at hDecision
  · obtain ⟨r', -, hJudge⟩ := Option.map_eq_some_iff.mp hDecision
    unfold Client.judge at hJudge
    split at hJudge
    · rename_i hSuccess
      cases hJudge
      exact hSuccess
    · cases hJudge
  · cases hDecision
  · split at hDecision <;> cases hDecision
  · cases hDecision

theorem isOutstanding_append (h : wasSent seq trace = true) :
    isOutstanding seq (trace ++ entries) =
      (isOutstanding seq trace && entries.all (!settles seq ·)) := by
  simp [isOutstanding, wasSent_append, since_append h, h]

theorem since_sent {r : Request} (h : wasSent r.seq trace = false) :
    since r.seq (trace ++ [.sent r]) = [] := by
  rw [since_of_unsent h]
  simp [since, sends]

/-- A request that has just been sent is not decided. -/
theorem verdict_sent {r : Request} (h : wasSent r.seq trace = false) :
    verdict r.seq (trace ++ [.sent r]) = none := by
  rw [verdict, since_sent h, List.findSome?_nil]

theorem isOutstanding_sent {r : Request} (h : wasSent r.seq trace = false) :
    isOutstanding r.seq (trace ++ [.sent r]) = true := by
  simp [isOutstanding, since_sent h, wasSent, sends]

end Trace

namespace Client

variable {c d : Client} {seq : Nat} {m : String} {entries : List Entry}

/-- The result that the caller of a request would get now. -/
def result? (c : Client) (seq : Nat) : Option (Except CallError Response) :=
  (c.poll? seq).map (·.2)

/-- No request stands twice in the table, and none is there that has been answered. -/
structure Apart (c : Client) : Prop where
  distinct : c.pending.Nodup
  answered : ∀ a ∈ c.answers, a.seq ∉ c.pending

/-- The tables follow what a trace tells about a request. -/
structure Follows (seq : Nat) (c : Client) (entries : List Entry) (d : Client) : Prop where
  result : d.result? seq = (c.result? seq).or (entries.findSome? (decision seq))
  pending : seq ∈ d.pending ↔ seq ∈ c.pending ∧ entries.all (!settles seq ·) = true

theorem result?_eq : c.result? seq = match c.answers.find? (·.seq == seq) with
    | some a => some (judge a.response)
    | none => if seq ∈ c.pending then none else some (.error .closed) := by
  unfold result? poll?
  cases c.answers.find? (·.seq == seq) with
  | some a => rfl
  | none =>
    simp only [List.contains_iff_mem]
    split <;> rfl

theorem result?_of_pending (h : c.Apart) (hMem : seq ∈ c.pending) : c.result? seq = none := by
  have hNone : c.answers.find? (·.seq == seq) = none := by
    refine List.find?_eq_none.mpr fun a hAnswer hSeq => h.answered a hAnswer ?_
    rwa [beq_iff_eq.mp hSeq]
  rw [result?_eq, hNone]
  exact if_pos hMem

theorem result?_isSome (h : seq ∉ c.pending) : (c.result? seq).isSome = true := by
  rw [result?_eq]
  split
  · rfl
  · rw [if_neg h]
    rfl

theorem result?_congr (hPending : d.pending = c.pending) (hAnswers : d.answers = c.answers) :
    d.result? seq = c.result? seq := by
  rw [result?_eq, result?_eq, hPending, hAnswers]

theorem Follows.same (hPending : d.pending = c.pending) (hAnswers : d.answers = c.answers)
    (hDecision : entries.findSome? (decision seq) = none)
    (hSettles : entries.all (!settles seq ·) = true) : Follows seq c entries d := by
  constructor
  · rw [hDecision, Option.or_none, result?_congr hPending hAnswers]
  · simp [hPending, hSettles]

theorem Follows.congr {e : Client} (h : Follows seq e entries d) (hPending : e.pending = c.pending)
    (hAnswers : e.answers = c.answers) : Follows seq c entries d := by
  constructor
  · rw [h.result, result?_congr hPending hAnswers]
  · rw [h.pending, hPending]

/-- Entries that are not about the request may stand behind. -/
theorem Follows.append {more : List Entry} (h : Follows seq c entries d)
    (hDecision : more.findSome? (decision seq) = none)
    (hSettles : more.all (!settles seq ·) = true) : Follows seq c (entries ++ more) d := by
  constructor
  · rw [h.result, List.findSome?_append, hDecision, Option.or_none]
  · rw [h.pending, List.all_append, hSettles, Bool.and_true]

theorem find?_push {answers : List Answer} {a : Answer} (h : a.seq ≠ seq) :
    (answers ++ [a]).find? (·.seq == seq) = answers.find? (·.seq == seq) := by
  simp [List.find?_append, h]

/-- An answer decides the request that it names if that is still open, and no other. -/
theorem resolve_follows {r : Response} {writable : Bool} (h : c.Apart)
    (hParse : Message.parse m = .ok (.response r)) :
    Follows seq c [.received m writable] (c.resolve r) := by
  have hAnswers : answer? seq m = if r.requestSeq = seq then some r else none := by
    simp only [answer?, hParse]
  rcases resolve_cases c r with ⟨other, hOther, hNames, hResolve⟩ | ⟨hNobody, hResolve⟩
  · by_cases hSame : other = seq
    · subst hSame
      constructor
      · have hNone : c.answers.find? (·.seq == other) = none := by
          refine List.find?_eq_none.mpr fun a hAnswer hSeq => h.answered a hAnswer ?_
          rwa [beq_iff_eq.mp hSeq]
        rw [result?_of_pending h hOther, result?_eq, hResolve]
        simp [List.find?_append, hNone, decision, hAnswers, hNames]
      · simp [hResolve, h.distinct.mem_erase_iff, settles, hAnswers, hNames]
    · have hOut : answer? seq m = none := by
        rw [hAnswers, if_neg]
        intro hSeq
        exact hSame (Int.ofNat.inj (hNames.symm.trans hSeq))
      constructor
      · have hMem : seq ∈ c.pending.erase other ↔ seq ∈ c.pending :=
          List.mem_erase_of_ne (Ne.symm hSame)
        rw [result?_eq, result?_eq, hResolve]
        simp only [hMem]
        rw [find?_push (a := ⟨other, r⟩) hSame]
        simp [decision, hOut]
      · simp [hResolve, List.mem_erase_of_ne (Ne.symm hSame), settles, hOut]
  · rw [hResolve]
    by_cases hSeq : r.requestSeq = seq
    · have hOut : seq ∉ c.pending := fun hMem => hNobody seq hMem hSeq
      constructor
      · obtain ⟨result, hSome⟩ := Option.isSome_iff_exists.mp (result?_isSome hOut)
        simp [hSome]
      · simp [hOut]
    · exact .same rfl rfl (by simp [decision, hAnswers, hSeq]) (by simp [settles, hAnswers, hSeq])

theorem Handled.follows {said : List Message} {writable : Bool} (h : c.Apart)
    (hHandled : Handled m c d said) :
    Follows seq c (.received m writable :: said.map .wrote) d := by
  rw [← List.singleton_append]
  refine Follows.append ?_ ?_ ?_
  · cases hHandled with
    | dropped hParse =>
      have hOut : answer? seq m = none := by simp only [answer?, hParse]
      exact .same rfl rfl (by simp [decision, hOut]) (by simp [settles, hOut])
    | resolved hParse => exact resolve_follows h hParse
    | queued hParse =>
      have hOut : answer? seq m = none := by simp only [answer?, hParse]
      refine .same ?_ ?_ (by simp [decision, hOut]) (by simp [settles, hOut]) <;>
      · unfold queueEvent
        split <;> rfl
    | replied hParse hWritable | unreplied hParse hWritable =>
      have hOut : answer? seq m = none := by simp only [answer?, hParse]
      exact .same rfl rfl (by simp [decision, hOut]) (by simp [settles, hOut])
  · simp [List.findSome?_map, Function.comp_def, decision]
  · simp [settles]

/-- When the requests are given up, every one that is open is decided. -/
theorem ended_follows (hPending : d.pending = []) (hAnswers : d.answers = c.answers) :
    Follows seq c [.ended] d := by
  constructor
  · rw [result?_eq, result?_eq, hPending, hAnswers]
    cases c.answers.find? (·.seq == seq) with
    | some a => simp
    | none =>
      by_cases hMem : seq ∈ c.pending <;> simp [hMem, decision]
  · simp [hPending, settles]

theorem LoopTurn.follows (h : c.Apart) (hTurn : LoopTurn c d entries) :
    Follows seq c entries d := by
  cases hTurn with
  | wrote | unwritten | closed | read | failed => exact .same rfl rfl rfl rfl
  | @handled m _ connection said hRunning hAccepted hOpen hReceive hHandled =>
    have hApart : ({ c with connection } : Client).Apart := ⟨h.distinct, h.answered⟩
    exact (hHandled.follows hApart).congr rfl rfl
  | ended hClosing => exact ended_follows rfl rfl

/-- The request of another number enters the table. -/
theorem Follows.enter {other : Nat} (hOther : other ≠ seq)
    (hPending : d.pending = c.pending ++ [other]) (hAnswers : d.answers = c.answers)
    (hDecision : entries.findSome? (decision seq) = none)
    (hSettles : entries.all (!settles seq ·) = true) : Follows seq c entries d := by
  have hMem : seq ∈ d.pending ↔ seq ∈ c.pending := by simp [hPending, Ne.symm hOther]
  constructor
  · rw [result?_eq, result?_eq, hAnswers, hDecision, Option.or_none]
    simp only [hMem]
  · simp [hMem, hSettles]

/-- The request of another number is taken out of the table. -/
theorem Follows.takeOut {other : Nat} (hOther : other ≠ seq)
    (hPending : d.pending = c.pending.erase other) (hAnswers : d.answers = c.answers)
    (hDecision : entries.findSome? (decision seq) = none)
    (hSettles : entries.all (!settles seq ·) = true) : Follows seq c entries d := by
  have hMem : seq ∈ d.pending ↔ seq ∈ c.pending := by
    rw [hPending, List.mem_erase_of_ne (Ne.symm hOther)]
  constructor
  · rw [result?_eq, result?_eq, hAnswers, hDecision, Option.or_none]
    simp only [hMem]
  · simp [hMem, hSettles]

theorem find?_filter_of_ne {answers : List Answer} {other : Nat} (h : other ≠ seq) :
    (answers.filter (·.seq != other)).find? (·.seq == seq) = answers.find? (·.seq == seq) := by
  rw [List.find?_filter]
  congr 1
  funext a
  by_cases hSeq : a.seq = seq <;> simp [hSeq, Ne.symm h]

/-- Who polls for a result takes the answer with it. -/
theorem poll?_some {result : Except CallError Response} (h : c.poll? seq = some (d, result)) :
    d = { c with answers := c.answers.filter (·.seq != seq) } ∧ c.result? seq = some result := by
  refine ⟨?_, by simp [result?, h]⟩
  unfold poll? at h
  split at h
  · cases h
    rfl
  · rename_i hNone
    split at h
    · cases h
    · cases h
      have hAll : c.answers.filter (·.seq != seq) = c.answers :=
        List.filter_eq_self.mpr fun a hMem => by simpa using List.find?_eq_none.mp hNone a hMem
      rw [hAll]

theorem Follows.take {other : Nat} (hOther : other ≠ seq) (hPending : d.pending = c.pending)
    (hAnswers : d.answers = c.answers.filter (·.seq != other))
    (hDecision : entries.findSome? (decision seq) = none)
    (hSettles : entries.all (!settles seq ·) = true) : Follows seq c entries d := by
  constructor
  · rw [result?_eq, result?_eq, hAnswers, hPending, find?_filter_of_ne hOther, hDecision,
      Option.or_none]
  · simp [hPending, hSettles]

/-- Does the client know a number: as that of an open request, or of one that has been answered? -/
def Knows (c : Client) (seq : Nat) : Prop := seq ∈ c.pending ∨ ∃ a ∈ c.answers, a.seq = seq

theorem Apart.same (h : c.Apart) (hPending : d.pending = c.pending)
    (hAnswers : d.answers = c.answers) : d.Apart := by
  constructor
  · rw [hPending]
    exact h.distinct
  · rw [hPending, hAnswers]
    exact h.answered

theorem Apart.enter (h : c.Apart) (hNew : ¬ c.Knows seq) (hPending : d.pending = c.pending ++ [seq])
    (hAnswers : d.answers = c.answers) : d.Apart := by
  simp only [Knows, not_or, not_exists, not_and] at hNew
  constructor
  · rw [hPending, ← List.concat_eq_append]
    exact h.distinct.concat hNew.1
  · intro a hAnswer
    rw [hAnswers] at hAnswer
    simp [hPending, h.answered a hAnswer, hNew.2 a hAnswer]

/-- Fewer open requests and fewer answers. -/
theorem Apart.shrink (h : c.Apart) (hPending : d.pending.Sublist c.pending)
    (hAnswers : d.answers ⊆ c.answers) : d.Apart := by
  constructor
  · exact h.distinct.sublist hPending
  · intro a hAnswer hMem
    exact h.answered a (hAnswers hAnswer) (hPending.subset hMem)

/-- What the loop does to the tables: nothing new becomes known. -/
structure Keeps (c d : Client) : Prop where
  next : c.nextSeq ≤ d.nextSeq
  apart : c.Apart → d.Apart
  known : ∀ seq, d.Knows seq → c.Knows seq

theorem Keeps.same (hNext : c.nextSeq ≤ d.nextSeq) (hPending : d.pending = c.pending)
    (hAnswers : d.answers = c.answers) : Keeps c d where
  next := hNext
  apart h := h.same hPending hAnswers
  known seq h := by simpa [Knows, hPending, hAnswers] using h

theorem Keeps.emptied (hNext : c.nextSeq ≤ d.nextSeq) (hPending : d.pending = [])
    (hAnswers : d.answers = c.answers) : Keeps c d where
  next := hNext
  apart h := ⟨by simp [hPending], by simp [hPending]⟩
  known seq h := by
    rw [Knows, hPending, hAnswers] at h
    exact h.imp_left fun hMem => nomatch hMem

theorem resolve_keeps (r : Response) : Keeps c (c.resolve r) := by
  rcases resolve_cases c r with ⟨other, hOther, -, hResolve⟩ | ⟨-, hResolve⟩
  · rw [hResolve]
    constructor
    · exact Nat.le_refl _
    · intro h
      refine ⟨h.distinct.erase other, fun a hAnswer hMem => ?_⟩
      rcases List.mem_append.mp hAnswer with hOld | hNew
      · exact h.answered a hOld (List.mem_of_mem_erase hMem)
      · rw [List.mem_singleton.mp hNew] at hMem
        exact h.distinct.not_mem_erase hMem
    · rintro seq (hMem | ⟨a, hAnswer, rfl⟩)
      · exact .inl (List.mem_of_mem_erase hMem)
      · rcases List.mem_append.mp hAnswer with hOld | hNew
        · exact .inr ⟨a, hOld, rfl⟩
        · rw [List.mem_singleton.mp hNew]
          exact .inl hOther
  · rw [hResolve]
    exact .same (Nat.le_refl _) rfl rfl

theorem Handled.keeps {said : List Message} (hHandled : Handled m c d said) : Keeps c d := by
  cases hHandled with
  | resolved hParse => exact resolve_keeps _
  | queued hParse =>
    unfold queueEvent
    split <;> exact .same (Nat.le_refl _) rfl rfl
  | dropped => exact .same (Nat.le_refl _) rfl rfl
  | replied | unreplied => exact .same (Nat.le_succ _) rfl rfl

theorem LoopTurn.keeps (hTurn : LoopTurn c d entries) : Keeps c d := by
  cases hTurn with
  | wrote | unwritten | closed | read | failed => exact .same (Nat.le_refl _) rfl rfl
  | handled hRunning hAccepted hOpen hReceive hHandled =>
    have hKeeps := hHandled.keeps
    exact ⟨hKeeps.next, fun h => hKeeps.apart (h.same rfl rfl), hKeeps.known⟩
  | ended hClosing => exact .emptied (Nat.le_refl _) rfl rfl

end Client
end EditorBridge.Adapter
