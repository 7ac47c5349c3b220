import EditorBridge.Proofs.Rpc.Course
import Mathlib.Data.Nat.Count
/-!
What a client has taken reaches its peer. Closing takes nothing out of the queues on the way: no
caller can put anything into the first one any more, the loop writes what is left there and lets the
connection go, the writer writes what is left in the second one and ends the stream.

Closing waits for the loop two seconds and cuts it off then, and what it had not written by then is
lost. That the loop is through in time is an assumption here, and it is one about the clock only:
the loop never waits for anybody. Once the client is closed it always has a step to make, and it is
through after as many of them as messages were left and four more.
-/
namespace EditorBridge.Rpc

namespace Course

/-- The peer has read the frames of these messages and of these replies, each once and in their
order, and nothing else. -/
def Heard (c : Course) (taken : List String) (replies : List Response) : Prop :=
  ∃ said : List Said, c.read = said.map Said.frame ∧ said.filterMap Said.own? = taken ∧
    said.filterMap Said.reply? = replies

/-- The loop is through, the stream to the peer has ended, and the peer has read it to its end. -/
def Finished (c : Course) : Prop :=
  c.now.client.phase = .ended ∧ c.now.transport.writing = false ∧ c.now.transport.wire = []

end Course

/-- The loop, the writer and the peer each have their turn again and again. -/
structure Fair (schedule : Nat → Step) : Prop where
  loop : ∀ n, ∃ m ≥ n, (schedule m).isLoop = true
  writer : ∀ n, ∃ m ≥ n, (schedule m).isWrite = true
  peer : ∀ n, ∃ m ≥ n, (schedule m).isRead = true

namespace Course

variable {c : Course} {step : Step} {answer : Request → Response}

/-- From the callers to the peer nothing is lost, doubled or overtaken. -/
def Way (c : Course) : Prop :=
  ∃ said : List Said,
    c.read ++ (c.now.transport.wire ++ c.now.transport.outbox) = said.map Said.frame ∧
    c.taken = said.filterMap Said.own? ++ c.now.client.accepted ∧
    c.replies = said.filterMap Said.reply?

structure Sound (c : Course) : Prop where
  way : c.Way
  holding : c.now.held ≠ none → c.now.client.phase = .running
  writable : c.now.client.phase = .running → c.now.client.connection.writable = true
  left : c.now.client.phase ≠ .running →
    c.now.client.accepted = [] ∧ c.now.transport.closed = true
  drained : c.now.transport.writing = false →
    c.now.transport.outbox = [] ∧ c.now.transport.closed = true

/-- The loop has given the connection up. -/
def Fallen (c : Course) : Prop := c.now.client.phase ≠ .running ∧ c.now.held = none

/-- More messages are handed to the connection. -/
theorem Way.append (h : c.Way) {d : Course} (more : List Said) (hRead : d.read = c.read)
    (hWire : d.now.transport.wire = c.now.transport.wire)
    (hOutbox : d.now.transport.outbox = c.now.transport.outbox ++ more.map Said.frame)
    (hTaken : d.taken = c.taken)
    (hAccepted : c.now.client.accepted = more.filterMap Said.own? ++ d.now.client.accepted)
    (hReplies : d.replies = c.replies ++ more.filterMap Said.reply?) : d.Way := by
  obtain ⟨said, hWay, hFrom, hReplied⟩ := h
  refine ⟨said ++ more, ?_, ?_, ?_⟩
  · rw [hRead, hWire, hOutbox, List.map_append, ← hWay]
    simp only [List.append_assoc]
  · rw [hTaken, hFrom, hAccepted, List.filterMap_append, List.append_assoc]
  · rw [hReplies, hReplied, List.filterMap_append]

theorem sound_start : start.Sound where
  way := ⟨[], rfl, rfl, rfl⟩
  holding h := absurd rfl h
  writable _ := rfl
  left h := absurd rfl h
  drained h := by cases h

namespace Sound

theorem caller (h : c.Sound) {move : Move} (hOther : move ≠ .loop)
    (hFrame : c.now.CallerFrame answer move)
    (hTakes : c.now.client.phase = .running ∨ c.now.client.isOpen = false) :
    (c.after (.own answer move)).Sound := by
  have hTransport : (c.after (.own answer move)).now.transport = c.now.transport :=
    congrArg (·.transport) hFrame.connection
  have hReplies : (c.after (.own answer move)).replies = c.replies := by
    cases move with
    | loop => exact absurd rfl hOther
    | _ => exact List.append_nil _
  constructor
  · obtain ⟨said, hWay, hTaken, hReplied⟩ := h.way
    refine ⟨said, ?_, ?_, hReplies.trans hReplied⟩
    · rw [hTransport, ← hWay]
      exact congrArg (· ++ _) (List.append_nil _)
    · simp only [after, hFrame.accepted, hTaken, List.append_assoc]
  · simpa only [after, hFrame.held, hFrame.phase] using h.holding
  · simpa only [after, hFrame.connection, hFrame.phase] using h.writable
  · intro hLeft
    have hLeft' : c.now.client.phase ≠ .running := hFrame.phase ▸ hLeft
    obtain ⟨hNone, hClosed⟩ := h.left hLeft'
    have hNothing := Exchange.accepts_of_closed (hTakes.resolve_left hLeft') (.own answer move)
    exact ⟨by simp only [after, hFrame.accepted, hNone, hNothing, List.append_nil],
      hTransport ▸ hClosed⟩
  · rw [hTransport]
    exact h.drained

theorem outside (h : c.Sound) {happening : Stream.Happening} (hStays : happening ≠ .breakOff) :
    (c.after (.outside happening)).Sound := by
  obtain ⟨hWay', hClosed, hConnected, hWriting⟩ :=
    Stream.Transport.after_calm (t := c.now.transport) hStays
  constructor
  · obtain ⟨said, hWay, hTaken, hReplied⟩ := h.way
    refine ⟨said, ?_, ?_, ?_⟩
    · rw [← hWay, ← hWay']
      exact List.append_assoc ..
    · exact (List.append_nil _).trans hTaken
    · exact (List.append_nil _).trans hReplied
  · exact h.holding
  · intro hRunning
    have hWritable : c.now.transport.writable = true := h.writable hRunning
    show (c.now.transport.after happening).writable = true
    rcases hWriting with hSame | ⟨-, hGone, -, -⟩
    · simpa only [Stream.Transport.writable, hConnected, hClosed, hSame] using hWritable
    · simp [Stream.Transport.writable, hGone] at hWritable
  · intro hLeft
    exact ⟨(h.left hLeft).1, hClosed.trans (h.left hLeft).2⟩
  · intro hEnded
    replace hEnded : (c.now.transport.after happening).writing = false := hEnded
    rcases hWriting with hSame | ⟨-, hGone, hEmpty, -⟩
    · obtain ⟨hNone, hGone⟩ := h.drained (hSame.symm.trans hEnded)
      have hDrain := c.now.transport.after_drain happening
      simp [Stream.Transport.drain, hNone, hSame.symm.trans hEnded] at hDrain
      exact ⟨hDrain.1, hClosed.trans hGone⟩
    · exact ⟨hEmpty, hClosed.trans hGone⟩

/-- What the loop does when it has left the connection is of no account to the messages on their
way. -/
theorem wraps_up (h : c.Sound) {d : Course} (hTaken : d.taken = c.taken) (hRead : d.read = c.read)
    (hReplies : d.replies = c.replies) (hHeld : d.now.held = none)
    (hLeft : c.now.client.phase ≠ .running) (hPhase : d.now.client.phase ≠ .running)
    (hAccepted : d.now.client.accepted = [])
    (hConnection : d.now.client.connection = c.now.client.connection) : d.Sound := by
  have hTransport : d.now.transport = c.now.transport := congrArg (·.transport) hConnection
  obtain ⟨hNone, hClosed⟩ := h.left hLeft
  constructor
  · refine h.way.append [] hRead ?_ ?_ hTaken ?_ (by simp [hReplies])
    · rw [hTransport]
    · rw [hTransport]
      exact (List.append_nil _).symm
    · rw [hNone, hAccepted]
      rfl
  · exact fun hHolds => absurd hHeld hHolds
  · exact fun hRunning => absurd hRunning hPhase
  · exact fun _ => ⟨hAccepted, hTransport ▸ hClosed⟩
  · rw [hTransport]
    exact h.drained

/-- A step of the loop, unless it finds that the stream of the peer is over. -/
theorem loop (h : c.Sound)
    (hStep : c.now.loopStep? answer = some (c.after (.own answer .loop)).now) :
    (c.after (.own answer .loop)).Sound ∨
      c.now.client.isOpen = true ∧ (c.after (.own answer .loop)).Fallen := by
  have hTaken : (c.after (.own answer .loop)).taken = c.taken := List.append_nil _
  have hRead : (c.after (.own answer .loop)).read = c.read := List.append_nil _
  have hReplies : (c.after (.own answer .loop)).replies =
      c.replies ++ c.now.replies (.own answer .loop) := rfl
  obtain ⟨hPass, -⟩ := Exchange.loop_pass h.holding h.writable hStep
  generalize c.after (.own answer .loop) = d at hTaken hRead hReplies hPass ⊢
  cases hPass with
  | went more hPhase hAccepted hGiven hOutbox hWire hWritable hLoad =>
    have hWrites : d.now.client.connection.writable = true := hWritable.trans (h.writable hPhase.1)
    refine .inl ⟨h.way.append more hRead hWire hOutbox hTaken hAccepted (hGiven ▸ hReplies), ?_, ?_,
      ?_, ?_⟩
    · exact fun _ => hPhase.2
    · exact fun _ => hWrites
    · exact fun hLeft => absurd hPhase.2 hLeft
    · intro hEnded
      -- Nothing is sent on a connection whose writer has ended.
      simp only [Frame.Connection.writable, Stream.Transport.writable, Bool.and_eq_true] at hWrites
      cases hWrites.2.symm.trans hEnded
  | left hHeld hAccepted hPhase hConnection =>
    have hTransport : d.now.transport = c.now.transport.close := congrArg (·.transport) hConnection
    rw [Exchange.replies_of_idle hHeld.1] at hReplies
    refine .inl ⟨h.way.append [] hRead ?_ ?_ hTaken ?_ hReplies, ?_, ?_, ?_, ?_⟩
    · rw [hTransport]
      rfl
    · rw [hTransport]
      exact (List.append_nil _).symm
    · rw [hAccepted.1, hAccepted.2]
      rfl
    · exact fun hHolds => absurd hHeld.2 hHolds
    · intro hRunning
      cases hPhase.2.symm.trans hRunning
    · exact fun _ => ⟨hAccepted.2, by rw [hTransport]; rfl⟩
    · rw [hTransport]
      exact fun hEnded => ⟨(h.drained hEnded).1, rfl⟩
  | failed hHeld hOpen hPhase => exact .inr ⟨hOpen, by simp [hPhase.2], hHeld.2⟩
  | gaveUp hHeld hAccepted hPhase hConnection =>
    rw [Exchange.replies_of_idle hHeld.1, List.append_nil] at hReplies
    exact .inl (h.wraps_up hTaken hRead hReplies hHeld.2 (by simp [hPhase.1]) (by simp [hPhase.2])
      (hAccepted.trans (h.left (by simp [hPhase.1])).1) hConnection)
  | ended hHeld hAccepted hPhase hConnection =>
    rw [Exchange.replies_of_idle hHeld.1, List.append_nil] at hReplies
    exact .inl (h.wraps_up hTaken hRead hReplies hHeld.2 (by simp [hPhase.1]) (by simp [hPhase.2])
      hAccepted hConnection)

theorem after (h : c.Sound) (hCalm : step.Calm)
    (hTakes : c.now.client.phase = .running ∨ c.now.client.isOpen = false) :
    (c.after step).Sound ∨ c.now.client.isOpen = true ∧ (c.after step).Fallen := by
  cases c.turn hCalm with
  | outside hStays => exact .inl (h.outside hStays)
  | idle hStep hSame => exact .inl (by rwa [hSame])
  | loop hStep => exact h.loop hStep
  | caller hOther hFrame => exact .inl (h.caller hOther hFrame hTakes)

end Sound

/-- What has fallen does not run again. -/
theorem Fallen.after (h : c.Fallen) (hCalm : step.Calm) : (c.after step).Fallen := by
  cases c.turn hCalm with
  | outside hStays => exact h
  | idle hStep hSame => rwa [hSame]
  | loop hStep => exact Exchange.loop_leaving h.2 h.1 hStep
  | caller hOther hFrame =>
    exact ⟨fun hRunning => h.1 (hFrame.phase.symm.trans hRunning), hFrame.held.trans h.2⟩

/-- As long as the loop runs, all is well. -/
theorem Sound.afterAll {steps : List Step} (h : c.Sound) (hCalm : ∀ step ∈ steps, step.Calm)
    (hRunning : (c.afterAll steps).now.client.phase = .running) : (c.afterAll steps).Sound := by
  -- A loop that has given up never runs again, so one that runs in the end has run all the time.
  have hEither : ∀ d : Course, d.Sound ∨ d.Fallen →
      (d.afterAll steps).Sound ∨ (d.afterAll steps).Fallen := by
    clear hRunning
    induction steps with
    | nil => exact fun d hNow => hNow
    | cons step rest ih =>
      intro d hNow
      apply ih fun other hOther => hCalm other (List.mem_cons_of_mem _ hOther)
      have hFirst := hCalm step List.mem_cons_self
      rcases hNow with hSound | hFallen
      · by_cases hRuns : d.now.client.phase = .running
        · exact (hSound.after hFirst (.inl hRuns)).imp id And.right
        · have hNone : d.now.held = none := not_not.mp fun hHolds => hRuns (hSound.holding hHolds)
          exact .inr (Fallen.after ⟨hRuns, hNone⟩ hFirst)
      · exact .inr (hFallen.after hFirst)
  exact (hEither c (.inl h)).resolve_right fun hFallen => hFallen.1 hRunning

/-- A client that nobody can hand a message to any more. -/
structure Closing (c : Course) : Prop where
  sound : c.Sound
  closed : c.now.client.isOpen = false

theorem Sound.close (h : c.Sound) : c.close.Closing where
  sound := ⟨h.way, h.holding, h.writable, h.left, h.drained⟩
  closed := rfl

namespace Closing

theorem not_open (h : c.Closing) : c.now.client.isOpen ≠ true := by simp [h.closed]

theorem after (h : c.Closing) (hCalm : step.Calm) : (c.after step).Closing where
  sound := (h.sound.after hCalm (.inr h.closed)).resolve_right fun hOpen =>
    h.not_open hOpen.1
  closed := by
    cases c.turn hCalm with
    | outside hStays => exact h.closed
    | idle hStep hSame => rw [hSame, h.closed]
    | loop hStep =>
      exact (Exchange.loop_pass h.sound.holding h.sound.writable hStep).2.trans h.closed
    | caller hOther hFrame => exact hFrame.closed h.closed

theorem taken_after (h : c.Closing) (step : Step) : (c.after step).taken = c.taken := by
  simp [Course.after, Exchange.accepts_of_closed h.closed]

/-- The loop has something to do until it has ended. -/
theorem loop_ready (h : c.Closing) (answer : Request → Response)
    (hPhase : c.now.client.phase ≠ .ended) : ∃ y, c.now.loopStep? answer = some y := by
  unfold Exchange.loopStep?
  split
  · exact ⟨_, rfl⟩
  · split
    · exact ⟨_, rfl⟩
    · split
      · exact ⟨_, rfl⟩
      · unfold Client.loopStep?
        cases hNow : c.now.client.phase with
        | ended => exact absurd hNow hPhase
        | closing => exact ⟨_, rfl⟩
        | running =>
          cases hAccepted : c.now.client.accepted with
          | nil => exact ⟨_, by simp only [h.closed]; rfl⟩
          | cons m rest => exact ⟨_, rfl⟩

theorem load_eq_zero (h : c.Closing) : c.now.load = 0 ↔ c.now.client.phase = .ended := by
  unfold Exchange.load
  constructor
  · cases hPhase : c.now.client.phase <;> simp
    split <;> simp
  · intro hEnded
    have hNone : c.now.held = none := not_not.mp fun hHolds => by
      cases hEnded.symm.trans (h.sound.holding hHolds)
    simp [hEnded, hNone, (h.sound.left (by simp [hEnded])).1]

/-- Nobody makes more work for the loop, and with each of its steps there is less. -/
theorem load_after (h : c.Closing) (hCalm : step.Calm) :
    (c.after step).now.load ≤ c.now.load - step.isLoop.toNat := by
  cases c.turn hCalm with
  | outside hStays => exact Nat.le_refl _
  | @idle answer hStep hSame =>
    have hEnded : c.now.client.phase = .ended := not_not.mp fun hPhase => by
      obtain ⟨y, hReady⟩ := h.loop_ready answer hPhase
      cases hStep.symm.trans hReady
    rw [hSame, h.load_eq_zero.mpr hEnded]
    exact Nat.zero_le _
  | @loop answer hStep =>
    show (c.after (.own answer .loop)).now.load ≤ c.now.load - 1
    obtain ⟨hPass, -⟩ := Exchange.loop_pass h.sound.holding h.sound.writable hStep
    cases hPass with
    | went more hPhase hAccepted hReplies hOutbox hWire hWritable hLoad =>
      have hLess := hLoad.resolve_left h.not_open
      omega
    | left hHeld hAccepted hPhase =>
      simp only [Exchange.load, hHeld, hAccepted, hPhase]
      split <;> simp
    | failed hHeld hOpen => exact absurd hOpen h.not_open
    | gaveUp hHeld hAccepted hPhase hConnection hEmptied =>
      simp [Exchange.load, hHeld, hAccepted, hPhase, hEmptied]
    | ended hHeld hAccepted hPhase =>
      simp only [Exchange.load, hHeld, hAccepted, hPhase]
      split <;> simp
  | @caller answer move hOther hFrame =>
    have hSame : (c.after (.own answer move)).now.load = c.now.load := by
      simp [Exchange.load, Course.after, hFrame.phase, hFrame.held, hFrame.emptied, hFrame.accepted,
        Exchange.accepts_of_closed h.closed]
    have hNotLoop : (Step.own answer move).isLoop = false := by
      cases move with
      | loop => exact absurd rfl hOther
      | _ => rfl
    rw [hSame, hNotLoop]
    exact Nat.le_refl _

end Closing

/-- The loop is through, and the last messages are with the connection. -/
structure Gone (c : Course) : Prop where
  closing : c.Closing
  ended : c.now.client.phase = .ended

namespace Gone

/-- What is still to happen happens on the connection. -/
theorem connection_after (h : c.Gone) (hCalm : step.Calm) :
    (∃ happening, step = .outside happening ∧ happening ≠ .breakOff) ∨
    step.isWrite = false ∧ step.isRead = false ∧
      (c.after step).now.transport = c.now.transport ∧ (c.after step).read = c.read := by
  cases c.turn hCalm with
  | outside hStays => exact .inl ⟨_, rfl, hStays⟩
  | idle hStep hSame => exact .inr ⟨rfl, rfl, by rw [hSame], by rw [hSame]⟩
  | loop hStep =>
    obtain ⟨hPass, -⟩ := Exchange.loop_pass h.closing.sound.holding h.closing.sound.writable hStep
    exact absurd h.ended hPass.not_ended
  | caller hOther hFrame =>
    exact .inr ⟨rfl, rfl, congrArg (·.transport) hFrame.connection, List.append_nil _⟩

theorem after (h : c.Gone) (hCalm : step.Calm) : (c.after step).Gone where
  closing := h.closing.after hCalm
  ended := by
    have hLoad := h.closing.load_after hCalm
    rw [h.closing.load_eq_zero.mpr h.ended, Nat.zero_sub] at hLoad
    exact (h.closing.after hCalm).load_eq_zero.mp (Nat.le_zero.mp hLoad)

theorem drain_eq_zero (h : c.Gone) :
    c.now.transport.drain = 0 ↔ c.now.transport.writing = false := by
  unfold Stream.Transport.drain
  constructor
  · cases c.now.transport.writing <;> simp
  · intro hWriting
    simp [hWriting, (h.closing.sound.drained hWriting).1]

theorem drain_after (h : c.Gone) (hCalm : step.Calm) :
    (c.after step).now.transport.drain ≤ c.now.transport.drain - step.isWrite.toNat := by
  rcases h.connection_after hCalm with ⟨happening, rfl, -⟩ | ⟨hWrite, -, hSame, -⟩
  · have hDown := c.now.transport.after_drain happening
    cases happening with
    | write =>
      apply Stream.Transport.write_drain
      · exact (h.closing.sound.left (by simp [h.ended])).2
      · exact fun hWriting => (h.closing.sound.drained hWriting).1
    | _ => exact hDown
  · simp [hWrite, hSame]

end Gone

/-- The stream to the peer has ended; the peer may still have to read the rest of it. -/
structure Over (c : Course) : Prop where
  gone : c.Gone
  writing : c.now.transport.writing = false

namespace Over

theorem after (h : c.Over) (hCalm : step.Calm) : (c.after step).Over where
  gone := h.gone.after hCalm
  writing := by
    have hDrain := h.gone.drain_after hCalm
    rw [h.gone.drain_eq_zero.mpr h.writing, Nat.zero_sub] at hDrain
    exact (h.gone.after hCalm).drain_eq_zero.mp (Nat.le_zero.mp hDrain)

theorem wire_after (h : c.Over) (hCalm : step.Calm) :
    (c.after step).now.transport.wire.length ≤
      c.now.transport.wire.length - step.isRead.toNat := by
  rcases h.gone.connection_after hCalm with ⟨happening, rfl, -⟩ | ⟨-, hRead, hSame, -⟩
  · have hDown := Stream.Transport.after_wire h.writing happening
    cases happening with
    | read => exact Nat.zero_le _
    | _ => exact hDown
  · simp [hRead, hSame]

/-- At the end of the stream nothing follows. -/
theorem read_after (h : c.Over) (hWire : c.now.transport.wire = []) (hCalm : step.Calm) :
    (c.after step).now.transport.wire = [] ∧ (c.after step).read = c.read := by
  constructor
  · have hLength := h.wire_after hCalm
    rw [hWire, List.length_nil, Nat.zero_sub] at hLength
    exact List.eq_nil_of_length_eq_zero (Nat.le_zero.mp hLength)
  · rcases h.gone.connection_after hCalm with ⟨happening, rfl, -⟩ | ⟨-, -, -, hSame⟩
    · show c.read ++ c.now.transport.seen happening = c.read
      rw [Stream.Transport.seen_of_wire hWire, List.append_nil]
    · exact hSame

end Over

/-- What the peer has read is a first part of what was taken, with a first part of the replies. -/
theorem Sound.heard (h : c.Sound) :
    ∃ taken replies, taken <+: c.taken ∧ replies <+: c.replies ∧ c.Heard taken replies := by
  obtain ⟨said, hWay, hTaken, hReplies⟩ := h.way
  obtain ⟨first, rest, rfl, hRead, -⟩ := List.map_eq_append_iff.mp hWay.symm
  rw [List.filterMap_append] at hTaken hReplies
  exact ⟨_, _, ⟨_, (hTaken.trans (List.append_assoc ..)).symm⟩, ⟨_, hReplies.symm⟩, first,
    hRead.symm, rfl, rfl⟩

/-- In the end it is all. -/
theorem Finished.heard (hFinished : c.Finished) (h : c.Sound) : c.Heard c.taken c.replies := by
  obtain ⟨hEnded, hWriting, hWire⟩ := hFinished
  obtain ⟨said, hWay, hTaken, hReplies⟩ := h.way
  rw [hWire, (h.drained hWriting).1, List.append_nil, List.append_nil] at hWay
  rw [(h.left (by simp [hEnded])).1, List.append_nil] at hTaken
  exact ⟨said, hWay, hTaken.symm, hReplies.symm⟩

section Schedule

variable {schedule : Nat → Step}

/-- What each step keeps holds from then on. -/
theorem along_keeps {P : Course → Prop} (hCalm : ∀ n, (schedule n).Calm)
    (hKeeps : ∀ {d : Course} {step : Step}, P d → step.Calm → P (d.after step)) {n m : Nat}
    (hLater : n ≤ m) (h : P (c.along schedule n)) : P (c.along schedule m) := by
  induction m, hLater using Nat.le_induction with
  | base => exact h
  | succ m hLater ih => exact hKeeps ih (hCalm m)

theorem Closing.taken_along (h : c.Closing) (hCalm : ∀ n, (schedule n).Calm) (n : Nat) :
    (c.along schedule n).taken = c.taken := by
  induction n with
  | zero => rfl
  | succ n ih =>
    have hClosing := along_keeps hCalm Closing.after (Nat.zero_le n) h
    exact (hClosing.taken_after (schedule n)).trans ih

theorem Closing.load_along (h : c.Closing) (hCalm : ∀ n, (schedule n).Calm) (n : Nat) :
    (c.along schedule n).now.load ≤ c.now.load - Nat.count (fun i => (schedule i).isLoop) n := by
  induction n with
  | zero => exact Nat.le_refl _
  | succ n ih =>
    have hClosing := along_keeps hCalm Closing.after (Nat.zero_le n) h
    have hStep := hClosing.load_after (hCalm n)
    have hTurn : (schedule n).isLoop.toNat = if (schedule n).isLoop then 1 else 0 := by
      cases (schedule n).isLoop <;> rfl
    rw [Course.along, Nat.count_succ]
    omega

/-- What gets less with every turn of a task comes to its end, if the task has its turn again and
again. -/
theorem reaches_zero (rank : Nat → Nat) (start : Nat) {turn : Nat → Bool}
    (hOften : ∀ n, ∃ m ≥ n, turn m = true)
    (hLess : ∀ n ≥ start, rank (n + 1) ≤ rank n - (turn n).toNat) : ∃ n ≥ start, rank n = 0 := by
  have hDown {n m : Nat} (hStart : start ≤ n) (hLater : n ≤ m) : rank m ≤ rank n := by
    induction m, hLater using Nat.le_induction with
    | base => exact Nat.le_refl _
    | succ m hLater ih => exact (hLess m (hStart.trans hLater)).trans ((Nat.sub_le ..).trans ih)
  -- The next turn of the task takes the rank below its bound.
  have hAll : ∀ bound n, start ≤ n → rank n ≤ bound → ∃ m ≥ start, rank m = 0 := by
    intro bound
    induction bound with
    | zero => exact fun n hStart hNone => ⟨n, hStart, Nat.le_zero.mp hNone⟩
    | succ bound ih =>
      intro n hStart hBound
      obtain ⟨m, hLater, hTurn⟩ := hOften n
      have hNext := hLess m (hStart.trans hLater)
      rw [hTurn, Bool.toNat_true] at hNext
      have hSoFar := hDown hStart hLater
      exact ih (m + 1) (by omega) (by omega)
  exact hAll (rank start) start (Nat.le_refl _) (Nat.le_refl _)

theorem Closing.finishes (h : c.Closing) (hCalm : ∀ n, (schedule n).Calm) (hFair : Fair schedule) :
    ∃ n, (c.along schedule n).Finished := by
  -- First the loop comes to its end, then the writer, then the peer; what has ended stays so.
  obtain ⟨n, -, hLoad⟩ := reaches_zero (fun n => (c.along schedule n).now.load) 0
    hFair.loop fun n _ =>
      (along_keeps hCalm Closing.after (Nat.zero_le n) h).load_after (hCalm n)
  have hClosing := along_keeps hCalm Closing.after (Nat.zero_le n) h
  have hGone : (c.along schedule n).Gone := ⟨hClosing, hClosing.load_eq_zero.mp hLoad⟩
  obtain ⟨m, hLater, hDrain⟩ :=
    reaches_zero (fun n => (c.along schedule n).now.transport.drain) n
      hFair.writer fun m hLater => (along_keeps hCalm Gone.after hLater hGone).drain_after (hCalm m)
  have hGone' := along_keeps hCalm Gone.after hLater hGone
  have hOver : (c.along schedule m).Over := ⟨hGone', hGone'.drain_eq_zero.mp hDrain⟩
  obtain ⟨k, hLater', hWire⟩ :=
    reaches_zero (fun n => (c.along schedule n).now.transport.wire.length) m
      hFair.peer fun k hLater' => (along_keeps hCalm Over.after hLater' hOver).wire_after (hCalm k)
  have hOver' := along_keeps hCalm Over.after hLater' hOver
  exact ⟨k, hOver'.gone.ended, hOver'.writing, List.eq_nil_of_length_eq_zero hWire⟩

end Schedule

/-- What follows for a client once it is closed. -/
structure Flushes (c : Course) (schedule : Nat → Step) : Prop where
  /-- At every moment the peer has read a first part of the messages that were taken before, with a
  first part of the replies between them. -/
  ordered : ∀ n, ∃ taken replies, taken <+: c.taken ∧
    replies <+: (c.along schedule n).replies ∧ (c.along schedule n).Heard taken replies
  /-- When the peer has read the stream to its end, it has read all of them, and nothing follows. -/
  whole : ∀ n, (c.along schedule n).Finished →
    (c.along schedule n).Heard c.taken (c.along schedule n).replies ∧
    ∀ m ≥ n, (c.along schedule m).Finished ∧ (c.along schedule m).read = (c.along schedule n).read
  /-- The loop needs no more turns than its load. -/
  prompt : ∀ n, c.now.load ≤ Nat.count (fun i => (schedule i).isLoop) n →
    (c.along schedule n).now.client.phase = .ended
  /-- The stream does end. -/
  ends : Fair schedule → ∃ n, (c.along schedule n).Finished

theorem Closing.flushes (h : c.Closing) {schedule : Nat → Step}
    (hCalm : ∀ n, (schedule n).Calm) : c.Flushes schedule where
  ordered n := by
    have hHeard := (along_keeps hCalm Closing.after (Nat.zero_le n) h).sound.heard
    rwa [h.taken_along hCalm] at hHeard
  whole n hFinished := by
    have hClosing := along_keeps hCalm Closing.after (Nat.zero_le n) h
    have hOver : (c.along schedule n).Over := ⟨⟨hClosing, hFinished.1⟩, hFinished.2.1⟩
    constructor
    · have hHeard := hFinished.heard hClosing.sound
      rwa [h.taken_along hCalm] at hHeard
    · intro m hLater
      have hStays : (c.along schedule m).Over ∧ (c.along schedule m).now.transport.wire = [] ∧
          (c.along schedule m).read = (c.along schedule n).read := by
        induction m, hLater using Nat.le_induction with
        | base => exact ⟨hOver, hFinished.2.2, rfl⟩
        | succ m hLater ih =>
          obtain ⟨hNow, hWire, hRead⟩ := ih
          obtain ⟨hWire', hRead'⟩ := hNow.read_after hWire (hCalm m)
          exact ⟨hNow.after (hCalm m), hWire', hRead'.trans hRead⟩
      exact ⟨⟨hStays.1.gone.ended, hStays.1.writing, hStays.2.1⟩, hStays.2.2⟩
  prompt n hTurns := by
    have hLoad := h.load_along hCalm n
    rw [Nat.sub_eq_zero_of_le hTurns] at hLoad
    exact (along_keeps hCalm Closing.after (Nat.zero_le n) h).load_eq_zero.mp (Nat.le_zero.mp hLoad)
  ends := h.finishes hCalm

/-- Whatever was taken while the connection stood, in any order with what arrived, reaches the peer
once the client is closed, unless the time that closing gives the loop is over before the loop is
through: each message once, whole and in the order in which they were taken, and then the end of the
stream. -/
theorem closed_clients_flush {before : List Step} (hBefore : ∀ step ∈ before, step.Calm)
    (hRunning : (start.afterAll before).now.client.phase = .running) {schedule : Nat → Step}
    (hStays : ∀ n, (schedule n).Stays) (hInTime : ∀ n, ¬ (schedule n).CutsOff) :
    (start.afterAll before).close.Flushes schedule :=
  (sound_start.afterAll hBefore hRunning).close.flushes fun n => ⟨hStays n, hInTime n⟩

/-- Two notifications and a call are taken, and between them a request of the server arrives. The
last notification waits in its queue and the request is not yet answered. -/
def lastWords : List Step :=
  let own := Step.own fun r => .methodNotFound r.id r.method
  [own (.notify "opened" none), own (.begin "first" (.ok none)), own (.advance 1), own .loop,
    .outside .write, own .loop,
    .outside (.arrive (Utf8.encode (Frame.encode
      "\x7b\"jsonrpc\":\"2.0\",\"id\":7,\"method\":\"ask\"\x7d").toList)),
    own .loop, own .loop, own (.notify "changed" none)]

/-- The loop, the writer and the peer by turns. -/
def byTurns (n : Nat) : Step :=
  match n % 3 with
  | 0 => .own (fun r => .methodNotFound r.id r.method) .loop
  | 1 => .outside .write
  | _ => .outside .read

theorem byTurns_fair : Fair byTurns where
  loop n := ⟨3 * n, by omega, by simp [byTurns, Step.isLoop]⟩
  writer n := ⟨3 * n + 1, by omega, by simp [byTurns, Step.isWrite]⟩
  peer n := ⟨3 * n + 2, by omega, by simp [byTurns, Step.isRead]⟩

theorem byTurns_calm (n : Nat) : (byTurns n).Calm := by
  unfold byTurns
  split <;> exact ⟨trivial, id⟩

theorem lastWords_shown :
    let c := start.afterAll lastWords
    (c.now.client.phase, c.taken.length, c.now.client.accepted.length, c.now.held.isSome,
      c.now.transport.outbox.length, c.now.transport.wire.length) =
      (.running, 3, 1, true, 1, 1) := by
  decide +kernel

theorem lastWords_flushed :
    (∀ step ∈ lastWords, step.Calm) ∧ (start.afterAll lastWords).now.client.phase = .running ∧
      (start.afterAll lastWords).taken.length = 3 ∧
      ∃ n, ((start.afterAll lastWords).close.along byTurns n).Finished ∧
        ((start.afterAll lastWords).close.along byTurns n).Heard (start.afterAll lastWords).taken
          ((start.afterAll lastWords).close.along byTurns n).replies := by
  have hCalm : ∀ step ∈ lastWords, step.Calm := by
    simp [lastWords, Step.Calm, Step.Stays, Step.CutsOff]
  have hShown := lastWords_shown
  simp only [Prod.mk.injEq] at hShown
  obtain ⟨hRunning, hTaken, -⟩ := hShown
  have hFlushes := closed_clients_flush hCalm hRunning (fun n => (byTurns_calm n).1)
    fun n => (byTurns_calm n).2
  obtain ⟨n, hFinished⟩ := hFlushes.ends byTurns_fair
  exact ⟨hCalm, hRunning, hTaken, n, hFinished, (hFlushes.whole n hFinished).1⟩

end Course
end EditorBridge.Rpc
