import EditorBridge.Proofs.Adapter.Exchange
import Mathlib.Data.List.Perm.Basic
/-!
Every caller gets the result of its own request: whatever order callers, the loop and the peer act
in, what a wait returns is what decided the request first, and nothing else touches a request that
is open. The table of open requests holds the requests that are still to be answered, and besides
them only the numbers of callers whose request has just not been taken.
-/
namespace EditorBridge.Adapter
namespace Exchange

variable {x y z : Exchange} {trace entries : List Entry} {seq other : Nat} {s : Caller}
  {c d : Client}

/-- A request that was sent, and that is in the table while it is to be answered. -/
def Listed (c : Client) (trace : List Entry) (seq : Nat) : Prop :=
  wasSent seq trace = true ∧ (seq ∈ c.pending ↔ isOutstanding seq trace = true)

/-- How the tables and the trace bear a caller out. -/
def Standing (c : Client) (trace : List Entry) (seq : Nat) : Caller → Prop
  | .unused | .entering _ _ => ¬ c.Knows seq ∧ wasSent seq trace = false
  | .withdrawing => wasSent seq trace = false
  | .refused => seq ∉ c.pending ∧ wasSent seq trace = false
  | .holding _ | .waiting _ _ | .dropped => Listed c trace seq ∧ c.result? seq = verdict seq trace
  | .late command limit =>
    Listed c trace seq ∧ verdict seq trace = some (.error (.timeout command limit))
  | .returned result => Listed c trace seq ∧ seq ∉ c.pending ∧ verdict seq trace = some result

/-- What holds at every moment. -/
structure Sound (x : Exchange) (trace : List Entry) : Prop where
  apart : x.client.Apart
  fresh : ∀ seq, x.client.nextSeq ≤ seq → x.caller seq = .unused
  standing : ∀ seq, Standing x.client trace seq (x.caller seq)
  /-- Every request is sent once. -/
  once : ∃ numbers : List Nat, numbers.Nodup ∧
    (sentRequests trace).map Request.seq = numbers.map Nat.cast

theorem sound_create (transport : Stream.Transport) : Sound (create transport) [] where
  apart := ⟨List.nodup_nil, nofun⟩
  fresh _ _ := rfl
  standing _ := ⟨by simp [Client.Knows, create, Client.create], rfl⟩
  once := ⟨[], List.nodup_nil, rfl⟩

/-- How the tables and the trace change from one moment to the next for a request. -/
structure Passes (seq : Nat) (c : Client) (entries : List Entry) (d : Client) : Prop where
  follows : Client.Follows seq c entries d
  known : d.Knows seq → c.Knows seq
  silent : wasSent seq entries = false

theorem Listed.append (h : Listed c trace seq)
    (hPending : seq ∈ d.pending ↔ seq ∈ c.pending ∧ entries.all (!settles seq ·) = true) :
    Listed d (trace ++ entries) seq := by
  obtain ⟨hSent, hListed⟩ := h
  refine ⟨by simp [wasSent_append, hSent], ?_⟩
  rw [hPending, hListed, isOutstanding_append hSent, Bool.and_eq_true]

/-- Whoever takes no part stays where it is. -/
theorem Standing.passes (h : Standing c trace seq s) (hPasses : Passes seq c entries d) :
    Standing d (trace ++ entries) seq s := by
  have hUnsent (hBefore : wasSent seq trace = false) : wasSent seq (trace ++ entries) = false := by
    simp [wasSent_append, hBefore, hPasses.silent]
  cases s with
  | unused | entering => exact ⟨fun hKnown => h.1 (hPasses.known hKnown), hUnsent h.2⟩
  | withdrawing => exact hUnsent h
  | refused => exact ⟨fun hMem => h.1 (hPasses.follows.pending.mp hMem).1, hUnsent h.2⟩
  | holding | waiting | dropped =>
    refine ⟨h.1.append hPasses.follows.pending, ?_⟩
    rw [hPasses.follows.result, h.2, verdict_append h.1.1]
  | late => exact ⟨h.1.append hPasses.follows.pending, verdict_stays h.1.1 h.2⟩
  | returned =>
    exact ⟨h.1.append hPasses.follows.pending,
      fun hMem => h.2.1 (hPasses.follows.pending.mp hMem).1, verdict_stays h.1.1 h.2.2⟩

theorem Aside.silent (h : Aside x y entries) : sentRequests entries = [] := by
  cases h with
  | acted hHeld hHandled => simp [sentRequests]
  | stayed hTurn => exact hTurn.silent
  | took | left | gaveUp | letGo | event | noEvent | closed | stopped | cutOff | moved => rfl

theorem Aside.keeps (h : Aside x y entries) : Client.Keeps x.client y.client := by
  cases h with
  | acted hHeld hHandled => exact hHandled.keeps
  | stayed hTurn => exact hTurn.keeps
  | left hIdle hTurn => exact hTurn.keeps
  | gaveUp => exact .emptied (Nat.le_refl _) rfl rfl
  | took | letGo | event | noEvent | closed | stopped | cutOff | moved =>
    exact .same (Nat.le_refl _) rfl rfl

theorem Aside.passes (h : Aside x y entries) (hApart : x.client.Apart) (seq : Nat) :
    Passes seq x.client entries y.client := by
  refine ⟨?_, h.keeps.known seq, wasSent_of_silent h.silent⟩
  cases h with
  | acted hHeld hHandled => exact hHandled.follows hApart
  | stayed hTurn => exact hTurn.follows hApart
  | @left d hIdle hTurn =>
    have hFollows : Client.Follows seq x.client ([] ++ [.left d.connection.reader.queue]) d :=
      (hTurn.follows hApart).append (by simp [decision]) (by simp [settles])
    exact hFollows
  | gaveUp => exact Client.ended_follows rfl rfl
  | took | letGo | event | noEvent | closed | stopped | cutOff | moved =>
    exact .same rfl rfl rfl rfl

theorem Sound.aside (h : Sound x trace) (hAside : Aside x y entries) :
    Sound y (trace ++ entries) := by
  constructor
  · exact hAside.keeps.apart h.apart
  · intro seq hFresh
    rw [hAside.caller]
    exact h.fresh seq (Nat.le_trans hAside.keeps.next hFresh)
  · intro seq
    rw [hAside.caller]
    exact (h.standing seq).passes (hAside.passes h.apart seq)
  · obtain ⟨numbers, hDistinct, hSent⟩ := h.once
    exact ⟨numbers, hDistinct, by simp [hSent, hAside.silent]⟩

/-- What a caller does is of no account to the others. -/
theorem Turn.passes (h : Turn x seq s d entries) (hOther : seq ≠ other) :
    Passes other x.client entries d := by
  have hNumber : ¬ (seq : Int) = other := fun hSame => hOther (Int.ofNat.inj hSame)
  cases h with
  | sent =>
    refine ⟨.enter hOther rfl rfl rfl rfl, ?_, by simp [wasSent, sends, hNumber]⟩
    simp [Client.Knows, enter, accept, Ne.symm hOther]
  | turnedAway =>
    refine ⟨.enter hOther rfl rfl rfl rfl, ?_, rfl⟩
    simp [Client.Knows, enter, Ne.symm hOther]
  | withdrew =>
    refine ⟨.takeOut hOther rfl rfl rfl rfl, ?_, rfl⟩
    exact Or.imp_left List.mem_of_mem_erase
  | waited | dropped => exact ⟨.same rfl rfl rfl rfl, id, rfl⟩
  | returned =>
    refine ⟨.take hOther rfl rfl rfl (by simp [settles, hNumber]), ?_, rfl⟩
    rintro (hPending | ⟨a, hAnswer, hSeq⟩)
    · exact .inl hPending
    · exact .inr ⟨a, List.mem_of_mem_filter hAnswer, hSeq⟩
  | expired => exact ⟨.same rfl rfl (by simp [decision, hNumber]) rfl, id, rfl⟩
  | timedOut =>
    refine ⟨.takeOut hOther rfl rfl rfl (by simp [settles, hNumber]), ?_, rfl⟩
    exact Or.imp_left List.mem_of_mem_erase

theorem Turn.apart (h : Turn x seq s d entries) (hApart : x.client.Apart)
    (hStanding : Standing x.client trace seq (x.caller seq)) : d.Apart := by
  cases h with
  | sent hCaller hTakes | turnedAway hCaller hTakes =>
    rw [hCaller] at hStanding
    exact hApart.enter hStanding.1 rfl rfl
  | withdrew | timedOut => exact hApart.shrink List.erase_sublist (fun _ => id)
  | waited | expired | dropped => exact hApart
  | returned => exact hApart.shrink (.refl _) (List.filter_subset_self _)

/-- Where a caller comes to is borne out by the tables and the trace. -/
theorem Turn.standing (h : Turn x seq s d entries) (hApart : x.client.Apart)
    (hStanding : Standing x.client trace seq (x.caller seq)) :
    Standing d (trace ++ entries) seq s := by
  have hAfter := h.apart hApart hStanding
  -- A request whose caller has just taken its result is not in the table any more.
  have hTaken {e : Client} {result : Except CallError Response}
      (hListed : Listed x.client trace seq) (hOut : seq ∉ e.pending) :
      Listed e (trace ++ [.returned seq result]) seq := by
    refine ⟨by simp [wasSent_append, hListed.1], ?_⟩
    rw [isOutstanding_append hListed.1]
    simp [hOut, settles]
  cases h with
  | @sent command arguments hCaller hTakes =>
    rw [hCaller] at hStanding
    have hMem : seq ∈ ((x.enter seq).accept ⟨seq, command, arguments⟩).client.pending := by
      simp [enter, accept]
    have hUnsent : wasSent (⟨seq, command, arguments⟩ : Request).seq trace = false := hStanding.2
    refine ⟨⟨by simp [wasSent, sends], ?_⟩, ?_⟩
    · simp only [hMem, true_iff]
      exact isOutstanding_sent hUnsent
    · rw [Client.result?_of_pending hAfter hMem]
      exact (verdict_sent hUnsent).symm
  | turnedAway hCaller hTakes =>
    rw [hCaller] at hStanding
    simpa [Standing] using hStanding.2
  | withdrew hCaller =>
    rw [hCaller] at hStanding
    have hUnsent : wasSent seq trace = false := hStanding
    exact ⟨hApart.distinct.not_mem_erase, by rw [wasSent_append, hUnsent]; rfl⟩
  | waited hCaller =>
    rw [hCaller] at hStanding
    simpa [Standing] using hStanding
  | returned hCaller hResult =>
    rw [hCaller] at hStanding
    obtain ⟨hListed, hVerdict⟩ := hStanding
    have hOut : seq ∉ x.client.pending := fun hMem => by
      simp [Client.result?_of_pending hApart hMem] at hResult
    exact ⟨hTaken hListed hOut, hOut, verdict_stays hListed.1 (hVerdict.symm.trans hResult)⟩
  | expired hCaller hResult =>
    rw [hCaller] at hStanding
    obtain ⟨hListed, hVerdict⟩ := hStanding
    refine ⟨hListed.append (by simp [settles]), ?_⟩
    rw [verdict_append hListed.1, ← hVerdict, hResult]
    simp [decision]
  | timedOut hCaller =>
    rw [hCaller] at hStanding
    have hOut : seq ∉ (x.takeOut seq).client.pending := hApart.distinct.not_mem_erase
    exact ⟨hTaken hStanding.1 hOut, hOut, verdict_stays hStanding.1.1 hStanding.2⟩
  | dropped hCaller =>
    have hHere : Listed x.client trace seq ∧ x.client.result? seq = verdict seq trace := by
      rcases hCaller with ⟨command, hCaller⟩ | ⟨command, limit, hCaller⟩ <;>
      · rw [hCaller] at hStanding
        exact hStanding
    simpa [Standing] using hHere

/-- Callers leave the numbers and the loop alone. -/
theorem Turn.frame (h : Turn x seq s d entries) :
    d.nextSeq = x.client.nextSeq ∧ d.phase = x.client.phase ∧ x.caller seq ≠ .unused := by
  cases h with
  | sent hCaller hTakes | turnedAway hCaller hTakes => simp [enter, accept, hCaller]
  | withdrew hCaller | timedOut hCaller => simp [takeOut, Client.giveUp, hCaller]
  | waited hCaller | returned hCaller hResult | expired hCaller hResult => simp [hCaller]
  | dropped hCaller => rcases hCaller with ⟨_, hCaller⟩ | ⟨_, _, hCaller⟩ <;> simp [hCaller]

theorem Turn.sends (h : Turn x seq s d entries) : sentRequests entries = [] ∨
    ∃ command arguments, x.caller seq = .entering command arguments ∧
      x.client.takesRequests = true ∧ sentRequests entries = [⟨seq, command, arguments⟩] := by
  cases h with
  | sent hCaller hTakes => exact .inr ⟨_, _, hCaller, hTakes, rfl⟩
  | turnedAway | withdrew | waited | returned | expired | timedOut | dropped => exact .inl rfl

theorem Sound.once_append (h : Sound x trace) (hTurn : Turn x seq s d entries) :
    ∃ numbers : List Nat, numbers.Nodup ∧
      (sentRequests (trace ++ entries)).map Request.seq = numbers.map Nat.cast := by
  obtain ⟨numbers, hDistinct, hSent⟩ := h.once
  rcases hTurn.sends with hSilent | ⟨command, arguments, hCaller, -, hNow⟩
  · exact ⟨numbers, hDistinct, by simp [hSent, hSilent]⟩
  · have hStanding := h.standing seq
    rw [hCaller] at hStanding
    have hNew : seq ∉ numbers := fun hMem => by
      have hBefore : wasSent seq trace = true := by
        rw [wasSent_iff, hSent]
        exact List.mem_map_of_mem hMem
      simp [hStanding.2] at hBefore
    refine ⟨numbers ++ [seq], ?_, by simp [hSent, hNow]⟩
    rw [← List.concat_eq_append]
    exact hDistinct.concat hNew

theorem Sound.turn (h : Sound x trace) (hTurn : Turn x seq s d entries) :
    Sound ({ x with client := d }.set seq s) (trace ++ entries) := by
  obtain ⟨hNext, -, hBegun⟩ := hTurn.frame
  constructor
  · exact hTurn.apart h.apart (h.standing seq)
  · intro number hFresh
    have hUnused := h.fresh number (by simpa [hNext] using hFresh)
    have hNe : number ≠ seq := fun hSame => hBegun (hSame ▸ hUnused)
    rw [set_caller_of_ne hNe]
    exact hUnused
  · intro number
    by_cases hSame : number = seq
    · subst hSame
      rw [set_caller_self]
      exact hTurn.standing h.apart (h.standing number)
    · rw [set_caller_of_ne hSame]
      exact (h.standing number).passes (hTurn.passes (Ne.symm hSame))
  · exact h.once_append hTurn

theorem Sound.begin (h : Sound x trace) (command : String) (arguments : Option Json) :
    Sound (x.begin command arguments) trace := by
  constructor
  · exact h.apart.same rfl rfl
  · intro seq hFresh
    have hLater : x.client.nextSeq < seq := hFresh
    have hNe : seq ≠ x.client.nextSeq := Nat.ne_of_gt hLater
    rw [Exchange.begin, set_caller_of_ne hNe]
    exact h.fresh seq (Nat.le_of_lt hLater)
  · intro seq
    by_cases hSame : seq = x.client.nextSeq
    · subst hSame
      have hUnused := h.standing x.client.nextSeq
      rw [h.fresh _ (Nat.le_refl _)] at hUnused
      rw [Exchange.begin, set_caller_self]
      exact hUnused
    · have hPasses : Passes seq x.client [] (x.begin command arguments).client :=
        ⟨.same rfl rfl rfl rfl, id, rfl⟩
      have hStanding := (h.standing seq).passes hPasses
      rw [List.append_nil] at hStanding
      rw [Exchange.begin, set_caller_of_ne hSame]
      exact hStanding
  · exact h.once

/-- Every move leaves the callers borne out. -/
theorem Sound.next {move : Move} (h : Sound x trace) (hStep : x.next? move = some (y, entries)) :
    Sound y (trace ++ entries) := by
  rcases next?_cases hStep with ⟨command, arguments, rfl, rfl⟩ | ⟨seq, s, d, hTurn, rfl⟩ |
    hAside
  · rw [List.append_nil]
    exact h.begin command arguments
  · exact h.turn hTurn
  · exact h.aside hAside

theorem Run.sound {transport : Stream.Transport} (hRun : Run (create transport) trace x) :
    Sound x trace := by
  induction hRun with
  | start => exact sound_create transport
  | step prior last ih => exact ih.next last

/-- Every wait returns what decided its request, and nobody else is affected by that. -/
structure Correlated (x : Exchange) (trace : List Entry) : Prop where
  returned : ∀ seq result, x.caller seq = .returned result → verdict seq trace = some result
  /-- A wait may begin at any time after the request was sent, -/
  begins : ∀ seq command limit, x.caller seq = .holding command →
    x.next? (.wait seq limit) = some (x.set seq (.waiting command limit), [])
  /-- it returns as soon as the request is decided, and its time is not over then, -/
  decided : ∀ seq command limit result, x.caller seq = .waiting command limit →
    verdict seq trace = some result → x.next? (.expire seq) = none ∧
      ∃ y, x.next? (.advance seq) = some (y, [.returned seq result]) ∧
        y.caller seq = .returned result
  /-- and until then only its time can be over. -/
  undecided : ∀ seq command limit, x.caller seq = .waiting command limit →
    verdict seq trace = none → x.next? (.advance seq) = none ∧
      x.next? (.expire seq) =
        some (x.set seq (.late command limit), [.expired seq command limit])
  late : ∀ seq command limit, x.caller seq = .late command limit →
    ∃ y, x.next? (.advance seq) = some (y, [.returned seq (.error (.timeout command limit))]) ∧
      y.caller seq = .returned (.error (.timeout command limit))
  /-- A message that does not answer a request, or not as the first, changes nothing for it. -/
  spared : ∀ m y entries, x.held = some m → x.next? .loop = some (y, entries) →
    y.caller = x.caller ∧ ∀ seq : Nat, answer? seq m = none ∨ seq ∉ x.client.pending →
      y.client.result? seq = x.client.result? seq ∧
        (seq ∈ y.client.pending ↔ seq ∈ x.client.pending)

/-- The table holds the requests that are to be answered, and besides them only the numbers that
their callers are about to take out because the request was not taken. -/
structure Counted (x : Exchange) (trace : List Entry) : Prop where
  pending : ((x.client.pending.filter fun seq => !(x.caller seq matches .withdrawing)).map
    Nat.cast).Perm ((outstanding trace).map Request.seq)
  length : (∀ seq, x.caller seq ≠ .withdrawing) →
    x.client.pending.length = (outstanding trace).length
  withdraws : ∀ seq, x.caller seq = .withdrawing →
    x.next? (.advance seq) = some ((x.takeOut seq).set seq .refused, [.refused seq])
  /-- A request that is not taken leaves the table as it was, unless something else comes between
  its steps. -/
  refused : x.client.takesRequests = false → ∀ command arguments,
    ∃ y, x.follow? [.begin command arguments, .advance x.client.nextSeq,
        .advance x.client.nextSeq] = some ([.refused x.client.nextSeq], y) ∧
      y.client = (x.client.send command arguments).1 ∧ y.client.pending = x.client.pending

theorem Sound.waiting {command : String} {limit : Duration} (h : Sound x trace)
    (hCaller : x.caller seq = .waiting command limit) :
    x.client.result? seq = verdict seq trace := by
  have hStanding := h.standing seq
  rw [hCaller] at hStanding
  exact hStanding.2

theorem Sound.spared {m : String} (h : Sound x trace) (hHeld : x.held = some m)
    (hLoop : x.loop? = some (y, entries)) : y.caller = x.caller ∧
      ∀ seq : Nat, answer? seq m = none ∨ seq ∉ x.client.pending →
        y.client.result? seq = x.client.result? seq ∧
          (seq ∈ y.client.pending ↔ seq ∈ x.client.pending) := by
  obtain ⟨d, said, hHandled, hActed⟩ := loop?_acted hHeld
  cases hLoop.symm.trans hActed
  refine ⟨rfl, fun seq hOther => ?_⟩
  have hFollows : Client.Follows seq x.client (.received m x.client.writable :: said.map .wrote) d :=
    hHandled.follows h.apart
  rcases hOther with hNone | hOut
  · constructor
    · have hNothing : (Entry.received m x.client.writable :: said.map .wrote).findSome?
          (decision seq) = none := by
        simp [decision, hNone]
      rw [hFollows.result, hNothing, Option.or_none]
    · rw [hFollows.pending]
      simp [settles, hNone]
  · obtain ⟨result, hResult⟩ := Option.isSome_iff_exists.mp (Client.result?_isSome hOut)
    constructor
    · rw [hFollows.result, hResult, Option.some_or]
    · rw [hFollows.pending]
      simp [hOut]

theorem Sound.correlated (h : Sound x trace) : Correlated x trace where
  returned seq result hCaller := by
    have hStanding := h.standing seq
    rw [hCaller] at hStanding
    exact hStanding.2.2
  begins seq command limit hCaller := by simp only [next?, wait?, hCaller, Option.map_some]
  decided seq command limit result hCaller hVerdict := by
    have hResult := (h.waiting hCaller).trans hVerdict
    exact ⟨expire?_decided hResult, _, advance?_returned hCaller hResult, set_caller_self ..⟩
  undecided seq command limit hCaller hVerdict := by
    have hResult := (h.waiting hCaller).trans hVerdict
    exact ⟨advance?_undecided hCaller hResult, expire?_waiting hCaller hResult⟩
  late seq command limit hCaller := ⟨_, advance?_late hCaller, set_caller_self ..⟩
  spared m y entries hHeld hStep := h.spared hHeld hStep

/-- Who stands in the table without being about to leave it was sent and is to be answered. -/
theorem Sound.mem_pending (h : Sound x trace) :
    (seq ∈ x.client.pending ∧ x.caller seq ≠ .withdrawing) ↔
      wasSent seq trace = true ∧ isOutstanding seq trace = true := by
  have hStanding := h.standing seq
  cases hCaller : x.caller seq with
  | unused | entering =>
    rw [hCaller] at hStanding
    have hOut : seq ∉ x.client.pending := fun hMem => hStanding.1 (.inl hMem)
    simp [hOut, hStanding.2]
  | withdrawing =>
    rw [hCaller] at hStanding
    have hUnsent : wasSent seq trace = false := hStanding
    simp [hUnsent]
  | refused =>
    rw [hCaller] at hStanding
    simp [hStanding.1, hStanding.2]
  | holding | waiting | late | returned | dropped =>
    rw [hCaller] at hStanding
    simp [hStanding.1.1, hStanding.1.2]

theorem mem_outstanding {number : Int} : number ∈ (outstanding trace).map Request.seq ↔
    wasSent number trace = true ∧ isOutstanding number trace = true := by
  simp only [wasSent_iff, List.mem_map, outstanding, List.mem_filter]
  constructor
  · rintro ⟨r, ⟨hSent, hOpen⟩, rfl⟩
    exact ⟨⟨r, hSent, rfl⟩, hOpen⟩
  · rintro ⟨⟨r, hSent, rfl⟩, hOpen⟩
    exact ⟨r, ⟨hSent, hOpen⟩, rfl⟩

theorem Sound.pending_perm (h : Sound x trace) :
    ((x.client.pending.filter fun seq => !(x.caller seq matches .withdrawing)).map
      Nat.cast).Perm ((outstanding trace).map Request.seq) := by
  obtain ⟨numbers, hDistinct, hSent⟩ := h.once
  have hCast : Function.Injective (Nat.cast : Nat → Int) := fun _ _ => Int.ofNat.inj
  have hStays (seq : Nat) :
      (!(x.caller seq matches .withdrawing)) = true ↔ x.caller seq ≠ .withdrawing := by
    cases x.caller seq <;> simp
  rw [List.perm_ext_iff_of_nodup]
  · intro number
    rw [mem_outstanding]
    simp only [List.mem_map, List.mem_filter, hStays]
    constructor
    · rintro ⟨seq, hMem, rfl⟩
      exact h.mem_pending.mp hMem
    · rintro ⟨hBefore, hOpen⟩
      have hNumber := wasSent_iff.mp hBefore
      rw [hSent] at hNumber
      obtain ⟨seq, -, rfl⟩ := List.mem_map.mp hNumber
      exact ⟨seq, h.mem_pending.mpr ⟨hBefore, hOpen⟩, rfl⟩
  · exact (h.apart.distinct.filter _).map hCast
  · have hAll : ((sentRequests trace).map Request.seq).Nodup := hSent ▸ hDistinct.map hCast
    exact hAll.sublist (List.filter_sublist.map _)

/-- Uninterrupted, the steps of a caller whose request is not taken are those of `Client.send`. -/
theorem Sound.refused (h : Sound x trace) (hTakes : x.client.takesRequests = false)
    (command : String) (arguments : Option Json) :
    ∃ y, x.follow? [.begin command arguments, .advance x.client.nextSeq,
        .advance x.client.nextSeq] = some ([.refused x.client.nextSeq], y) ∧
      y.client = (x.client.send command arguments).1 ∧ y.client.pending = x.client.pending := by
  have hOut : x.client.nextSeq ∉ x.client.pending := fun hMem => by
    have hStanding := h.standing x.client.nextSeq
    rw [h.fresh _ (Nat.le_refl _)] at hStanding
    exact hStanding.1 (.inl hMem)
  have hErase : (x.client.pending ++ [x.client.nextSeq]).erase x.client.nextSeq =
      x.client.pending := by
    rw [List.erase_append_right _ hOut, List.erase_cons_head, List.append_nil]
  have hFirst : (x.begin command arguments).next? (.advance x.client.nextSeq) = _ :=
    advance?_turnedAway (set_caller_self ..) hTakes
  have hSecond : (((x.begin command arguments).enter x.client.nextSeq).set x.client.nextSeq
      .withdrawing).next? (.advance x.client.nextSeq) = _ :=
    advance?_withdrawing (set_caller_self ..)
  have hBegin : x.next? (.begin command arguments) = some (x.begin command arguments, []) := rfl
  have hAll : x.follow? [.begin command arguments, .advance x.client.nextSeq,
      .advance x.client.nextSeq] = some ([.refused x.client.nextSeq],
        ((((x.begin command arguments).enter x.client.nextSeq).set x.client.nextSeq
          .withdrawing).takeOut x.client.nextSeq).set x.client.nextSeq .refused) := by
    simp only [follow?, hBegin, hFirst, hSecond, Option.map_some, List.append_nil, List.nil_append]
  refine ⟨_, hAll, ?_, ?_⟩
  · simp [enter, takeOut, Client.giveUp, hErase, Client.send_refused hTakes]
  · simp [enter, takeOut, Client.giveUp, hErase]

theorem Sound.counted (h : Sound x trace) : Counted x trace where
  pending := h.pending_perm
  length hNobody := by
    have hAll : (x.client.pending.filter fun seq => !(x.caller seq matches .withdrawing)) =
        x.client.pending := by
      refine List.filter_eq_self.mpr fun seq _ => ?_
      have hStays := hNobody seq
      cases hCaller : x.caller seq <;> simp_all
    have hLength := h.pending_perm.length_eq
    rwa [hAll, List.length_map, List.length_map] at hLength
  withdraws seq hCaller := advance?_withdrawing hCaller
  refused hTakes := h.refused hTakes

end Exchange
end EditorBridge.Adapter
