import EditorBridge.Proofs.Adapter.Verdict
/-!
The requests whose callers have not taken their results, in runs in which each function of a client
is one step. As long as a request is held, its caller would get the verdict on it, whatever else
happens; and whoever takes a result gets the verdict.
-/
namespace EditorBridge.Adapter.Client

variable {c d : Client} {trace entries : List Entry} {held : List Nat} {seq : Nat} {action : Action}

/-- What holds at every moment of a client and of some requests that are held. -/
structure Kept (c : Client) (trace : List Entry) (held : List Nat) : Prop where
  apart : c.Apart
  fresh : ∀ seq, c.nextSeq ≤ seq → ¬ c.Knows seq ∧ wasSent seq trace = false
  held : ∀ seq ∈ held, wasSent seq trace = true ∧ c.result? seq = verdict seq trace

theorem kept_create (transport : Stream.Transport) : Kept (create transport) [] [] where
  apart := ⟨List.nodup_nil, nofun⟩
  fresh _ _ := ⟨by simp [Knows, create], rfl⟩
  held _ h := nomatch h

/-- Does the caller of a request take its result with an action? -/
def Action.Takes (seq : Nat) : Action → Prop
  | .poll number => number = seq
  | .giveUp number _ _ => number = seq
  | _ => False

/-- A number below the next one belongs to nobody else. -/
theorem Kept.lt (h : Kept c trace held) (hSent : wasSent seq trace = true) : seq < c.nextSeq := by
  refine Nat.lt_of_not_le fun hFresh => ?_
  have hUnsent := (h.fresh seq hFresh).2
  simp [hSent] at hUnsent

theorem Turn.follows (hTurn : Turn c action d entries) (hApart : c.Apart) (hOld : seq < c.nextSeq)
    (hOther : ¬ action.Takes seq) : Follows seq c entries d := by
  have hNe {other : Nat} (h : ¬ other = seq) : ¬ (other : Int) = seq := fun hSame =>
    h (Int.ofNat.inj hSame)
  cases hTurn with
  | sent hTakes => exact .enter (Nat.ne_of_gt hOld) rfl rfl rfl rfl
  | refused | took | missed | dropped | aborted | moved => exact .same rfl rfl rfl rfl
  | returned hPoll =>
    have hAnswers := congrArg Client.answers (poll?_some hPoll).1
    exact .take hOther rfl hAnswers rfl (by simp [settles, hNe hOther])
  | expired hPoll =>
    refine .takeOut hOther rfl rfl ?_ ?_
    · simp [decision, hNe hOther]
    · simp [settles, hNe hOther]
  | loop hTurn => exact hTurn.follows hApart

/-- What happens makes no number known that is not used up. -/
theorem Turn.fresh (hTurn : Turn c action d entries) (hFresh : d.nextSeq ≤ seq) :
    c.nextSeq ≤ seq ∧ (d.Knows seq → c.Knows seq) ∧ wasSent seq entries = false := by
  cases hTurn with
  | @sent command arguments hTakes =>
    have hLater : c.nextSeq < seq := hFresh
    have hNumber : ¬ (c.nextSeq : Int) = seq := fun hSame =>
      Nat.ne_of_lt hLater (Int.ofNat.inj hSame)
    refine ⟨Nat.le_of_lt hLater, ?_, by simp [wasSent, sends, hNumber]⟩
    simp [Knows, Nat.ne_of_gt hLater]
  | refused => exact ⟨Nat.le_of_succ_le hFresh, id, rfl⟩
  | took | missed | dropped | aborted | moved => exact ⟨hFresh, id, rfl⟩
  | returned hPoll =>
    refine ⟨hFresh, ?_, rfl⟩
    have hAnswers := congrArg Client.answers (poll?_some hPoll).1
    rintro (hMem | ⟨a, hAnswer, hSeq⟩)
    · exact .inl hMem
    · rw [hAnswers] at hAnswer
      exact .inr ⟨a, List.mem_of_mem_filter hAnswer, hSeq⟩
  | expired => exact ⟨hFresh, Or.imp_left List.mem_of_mem_erase, rfl⟩
  | loop hTurn =>
    exact ⟨Nat.le_trans hTurn.keeps.next hFresh, hTurn.keeps.known seq,
      wasSent_of_silent hTurn.silent⟩

theorem Turn.apart (hTurn : Turn c action d entries) (hApart : c.Apart)
    (hNew : ¬ c.Knows c.nextSeq) : d.Apart := by
  cases hTurn with
  | sent hTakes => exact hApart.enter hNew rfl rfl
  | refused | took | missed | dropped | aborted | moved => exact hApart.same rfl rfl
  | returned hPoll =>
    have hAnswers := congrArg Client.answers (poll?_some hPoll).1
    refine hApart.shrink (.refl _) ?_
    rw [hAnswers]
    exact List.filter_subset_self _
  | expired hPoll => exact hApart.shrink List.erase_sublist (fun _ => id)
  | loop hTurn => exact hTurn.keeps.apart hApart

/-- Nobody loses a request by what somebody else does. -/
theorem Kept.turn {more : List Nat} (h : Kept c trace held) (hTurn : Turn c action d entries)
    (hMore : ∀ seq ∈ more, seq ∈ held ∧ ¬ action.Takes seq) : Kept d (trace ++ entries) more := by
  constructor
  · exact hTurn.apart h.apart (h.fresh c.nextSeq (Nat.le_refl _)).1
  · intro seq hFresh
    obtain ⟨hBefore, hKnown, hUnsent⟩ := hTurn.fresh hFresh
    obtain ⟨hUnknown, hNever⟩ := h.fresh seq hBefore
    exact ⟨fun hNow => hUnknown (hKnown hNow), by simp [wasSent_append, hNever, hUnsent]⟩
  · intro seq hMem
    obtain ⟨hHeld, hOther⟩ := hMore seq hMem
    obtain ⟨hSent, hVerdict⟩ := h.held seq hHeld
    have hFollows := hTurn.follows h.apart (h.lt hSent) hOther
    refine ⟨by simp [wasSent_append, hSent], ?_⟩
    rw [hFollows.result, hVerdict, verdict_append hSent]

/-- A request that is sent is held from then on. -/
theorem Kept.send {command : String} {arguments : Option Json} (h : Kept c trace held)
    (hTakes : c.takesRequests = true)
    (hNext : c.next? (.send command arguments) = some (d, entries)) :
    entries = [.sent ⟨c.nextSeq, command, arguments⟩] ∧
      Kept d (trace ++ entries) (c.nextSeq :: held) := by
  have hTurn := Client.turn hNext
  have hKept : Kept d (trace ++ entries) held := h.turn hTurn fun seq hMem => ⟨hMem, id⟩
  cases hTurn with
  | sent =>
    refine ⟨rfl, hKept.apart, hKept.fresh, ?_⟩
    intro seq hMem
    rcases List.mem_cons.mp hMem with rfl | hOld
    · have hUnsent := (h.fresh c.nextSeq (Nat.le_refl _)).2
      refine ⟨by simp [wasSent, sends], ?_⟩
      rw [result?_of_pending hKept.apart (by simp)]
      exact (verdict_sent (r := ⟨c.nextSeq, command, arguments⟩) hUnsent).symm
    · exact hKept.held seq hOld
  | refused hRefused => simp [hTakes] at hRefused

/-- Who takes a result gets the verdict. -/
theorem Kept.poll {result : Except CallError Response} (h : Kept c trace held) (hMem : seq ∈ held)
    (hResult : c.result? seq = some result) : verdict seq trace = some result :=
  (h.held seq hMem).2.symm.trans hResult

end EditorBridge.Adapter.Client
