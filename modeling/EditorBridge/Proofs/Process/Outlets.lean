import EditorBridge.Proofs.Process.Hearing
import Mathlib.Tactic.ByContra
import Mathlib.Tactic.SplitIfs
/-!
What becomes of the standard error of each child. The handler of lines goes to the monitor of the
first child, so the lines of no other child reach it. A later child gets a monitor only if the manager
no longer holds the one before, and it gives this up when a stop or a kill ends, not when a child
exits by itself. So a child that is started behind such an exit loses its standard error at once.
-/
namespace EditorBridge.Process

/-- What becomes of the standard error of a child when it is started. -/
inductive Outlet where
  /-- Its lines reach the handler. -/
  | heard
  /-- It is read, and its lines reach no one. -/
  | drained
  /-- No one reads it. -/
  | closed
deriving DecidableEq, Repr

def Effect.closesErrorsOf (pid : Nat) : Effect → Bool
  | .closeErrors other => other == pid
  | _ => false

/-- The outlet that a step gives to the child that it starts. -/
def Step.outlet (step : Step) (pid : Nat) : Outlet :=
  if step.effects.any (Effect.closesErrorsOf pid) then .closed
  else if step.after.manager.monitors.any fun monitor => monitor.pid == pid && monitor.forwards then
    .heard
  else .drained

variable {trace earlier later : List Step} {start : Step} {l n : Lineage} {event : Event}
  {m : Manager} {pid prev : Nat} {program : Program} {grace : Duration}

/-- The manager holds a monitor while the latest child was neither stopped nor killed. -/
def HoldsMonitor (l : Lineage) : Prop :=
  l.manager.monitored.isSome = l.latest.any (!·.ended)

theorem holdsMonitor_create (program : Program) (grace : Duration) (handler : Bool) :
    HoldsMonitor (.create program grace handler) := rfl

theorem Manager.monitor_isSome (m : Manager) (pid : Nat) :
    (m.monitor pid).1.monitored.isSome = true := by
  cases h : m.monitored <;> simp [monitor, h]

theorem HoldsMonitor.step (hHolds : HoldsMonitor l) (h : l.next? event = some n) :
    HoldsMonitor n := by
  have hKeep (hMonitored : n.manager.monitored = l.manager.monitored)
      (hLatest : n.latest = l.latest) : HoldsMonitor n := by
    unfold HoldsMonitor
    rw [hMonitored, hLatest]
    exact hHolds
  have hFinish (hNone : n.manager.monitored = none)
      (hLatest : n.latest = l.latest.map Generation.finish) : HoldsMonitor n := by
    unfold HoldsMonitor
    rw [hNone, hLatest]
    cases l.latest <;> rfl
  have hDoes := Lineage.does_of_next? h
  generalize l.effects event = effects at hDoes
  cases hDoes with
  | started => exact Manager.monitor_isSome _ _
  | forced => exact hFinish (Manager.dropMonitor_ears _).2.1 rfl
  | stopped => exact hFinish (Manager.dropMonitor_ears _).2.1 rfl
  | overdue => exact hFinish (Manager.dropMonitor_ears _).2.1 rfl
  | killed => exact hFinish (Manager.dropMonitor_ears _).2.1 rfl
  | @exited exit hChild =>
    have hSame : (fun g : Generation => !(g.see exit.pid).ended) = fun g => !g.ended := by
      funext g
      unfold Generation.see
      split <;> rfl
    show l.manager.monitored.isSome = (l.latest.map (·.see exit.pid)).any (!·.ended)
    rw [Option.any_map]
    exact hHolds.trans (congrArg (l.latest.any ·) hSame.symm)
  | output => exact hKeep (Manager.onMonitor_ears _ _ _).2 rfl
  | outputEnd => exact hKeep (Manager.onMonitor_ears _ _ _).2 rfl
  | _ => exact hKeep rfl rfl

theorem Run.holdsMonitor {handler : Bool} (hRun : Run (.create program grace handler) trace l) :
    HoldsMonitor l := by
  induction hRun with
  | start => exact holdsMonitor_create program grace handler
  | step prior last ih => exact ih.step last

theorem next_eq_unstarted_iff {hearing : Hearing} {step : Step} :
    hearing.next step = .unstarted ↔ hearing = .unstarted ∧ step.started? = none := by
  cases hearing with
  | unstarted => cases h : step.started? <;> simp [Hearing.next, h]
  | listening pid bytes =>
    simp only [Hearing.next]
    split_ifs
    · simp
    · split <;> (try split_ifs) <;> simp
  | settled bytes whole => simp [Hearing.next]

/-- The handler waits as long as no child was started. -/
theorem hearing_unstarted_iff :
    hearing trace = .unstarted ↔ ∀ step ∈ trace, step.started? = none := by
  have hFrom (begun : Hearing) : trace.foldl Hearing.next begun = .unstarted ↔
      begun = .unstarted ∧ ∀ step ∈ trace, step.started? = none := by
    induction trace generalizing begun with
    | nil => simp
    | cons step rest ih =>
      rw [List.foldl_cons, ih, next_eq_unstarted_iff, List.forall_mem_cons, and_assoc]
  simpa [hearing] using hFrom .unstarted

/-- What a step does that starts a child. -/
theorem of_started? (h : l.next? event = some n)
    (hStarted : Step.started? ⟨l, event, n⟩ = some pid) :
    n.manager = ((l.manager.launched pid).monitor pid).1 ∧
      l.effects event = l.manager.dropConnection.2 ++ ((l.manager.launched pid).monitor pid).2 := by
  have hDoes := Lineage.does_of_next? h
  generalize l.effects event = effects at hDoes
  cases hDoes with
  | notStarted hRefused =>
    rw [started?_of_refused hRefused] at hStarted
    cases hStarted
  | started hRest hIdle hNew =>
    simp only [Step.started?, hIdle, Bool.false_eq_true, if_false, Option.some.injEq] at hStarted
    subst hStarted
    exact ⟨rfl, rfl⟩
  | _ => cases hStarted

/-- The outlet of a child, by what the manager holds when it is started. -/
theorem outlet_eq {hearing : Hearing} (hHears : Hears l.manager hearing)
    (h : l.next? event = some n) (hStarted : Step.started? ⟨l, event, n⟩ = some pid) :
    Step.outlet ⟨l, event, n⟩ pid =
      if hearing = .unstarted then .heard
      else if l.manager.monitored.isSome then .closed
      else .drained := by
  obtain ⟨hManager, hEffects⟩ := of_started? h hStarted
  have hDropped : l.manager.dropConnection.2.any (Effect.closesErrorsOf pid) = false := by
    unfold Manager.dropConnection
    cases l.manager.connection <;> rfl
  unfold Step.outlet Step.effects
  rw [hManager, hEffects, List.any_append, hDropped, Bool.false_or]
  cases hMonitored : l.manager.monitored with
  | some other =>
    have hMonitor : (l.manager.launched pid).monitor pid =
        (l.manager.launched pid, [.closeErrors pid]) := by
      simp [Manager.monitor, Manager.launched, Manager.dropConnection, hMonitored]
    have hHeard : hearing ≠ .unstarted := by
      rintro rfl
      rw [hHears.2.1] at hMonitored
      cases hMonitored
    simp [hMonitor, Effect.closesErrorsOf, hHeard]
  | none =>
    have hMonitor : ((l.manager.launched pid).monitor pid).2 = [] ∧
        ((l.manager.launched pid).monitor pid).1.monitors =
          l.manager.monitors ++ [⟨pid, l.manager.handlerWaits, .empty⟩] := by
      simp [Manager.monitor, Manager.launched, Manager.dropConnection, hMonitored]
    rw [hMonitor.1, hMonitor.2]
    cases hearing with
    | unstarted => simp [hHears.1]
    | listening child bytes =>
      rw [hHears.2.1] at hMonitored
      cases hMonitored
    | settled bytes whole =>
      obtain ⟨hTaken, hDrain⟩ := hHears
      have hNone : (l.manager.monitors ++
          [(⟨pid, l.manager.handlerWaits, .empty⟩ : Monitor)]).any
          (fun monitor => monitor.pid == pid && monitor.forwards) = false := by
        rw [List.any_eq_false]
        intro monitor hMonitor
        rcases List.mem_append.mp hMonitor with hOld | hNew
        · simp [hDrain monitor hOld]
        · simp [List.mem_singleton.mp hNew, hTaken]
      rw [hNone]
      rfl

/-- In a run the outlet of a child is told by what has come before. -/
theorem Run.outlet (hRun : Run (.create program grace true) trace l)
    (hTrace : trace = earlier ++ start :: later) (hStarted : start.started? = some pid) :
    ((∀ other ∈ earlier, other.started? = none) → start.outlet pid = .heard) ∧
      ∀ prev since, Last earlier prev since →
        start.outlet pid = if since.any Step.ends then .drained else .closed := by
  obtain ⟨hBefore, hStep, -⟩ := hRun.cut hTrace
  have hOutlet := outlet_eq hBefore.hears.1 hStep hStarted
  constructor
  · intro hFirst
    rw [hOutlet, if_pos (hearing_unstarted_iff.mpr hFirst)]
  · intro prev since hLast
    have hLater : hearing earlier ≠ .unstarted := by
      intro hNone
      obtain ⟨front, other, rfl, hOther, -⟩ := hLast
      rw [hearing_unstarted_iff.mp hNone other (by simp)] at hOther
      cases hOther
    obtain ⟨g, hLatest, -, -, hEnded⟩ := hBefore.told.of_last hLast
    have hHolds : start.before.manager.monitored.isSome = !since.any Step.ends := by
      rw [hBefore.holdsMonitor, hLatest, Option.any_some, hEnded]
    rw [hOutlet, if_neg hLater, hHolds]
    cases since.any Step.ends <;> rfl

/-- Whatever is handed on comes from the first child, while it is heard. -/
theorem Hears.listening {hearing : Hearing} (hHears : Hears l.manager hearing)
    (h : l.next? event = some n) (hLines : Step.lines ⟨l, event, n⟩ ≠ []) :
    ∃ pid bytes, hearing = .listening pid bytes ∧
      ((∃ more, event = .errorOutput pid more) ∨ event = .errorEnd pid) := by
  have hSilent (pid : Nat) (f : ErrorLines → ErrorLines × List String)
      (hSome : (l.manager.onMonitor pid f).2.filterMap Effect.line? ≠ []) :
      ∃ bytes, hearing = .listening pid bytes := by
    by_contra hOther
    exact hSome (hHears.onMonitor_other (not_exists.mp hOther) f).2
  cases event with
  | errorOutput pid more =>
    obtain ⟨bytes, hListening⟩ := hSilent pid (·.feed more) hLines
    exact ⟨pid, bytes, hListening, .inl ⟨more, rfl⟩⟩
  | errorEnd pid =>
    obtain ⟨bytes, hListening⟩ := hSilent pid (·.finish) hLines
    exact ⟨pid, bytes, hListening, .inr rfl⟩
  | _ => exact absurd (lines_of_does (Lineage.does_of_next? h) rfl) hLines

/-- At most one child is started exactly if none is started behind another. -/
theorem started_length_le_one_iff : (trace.filterMap Step.started?).length ≤ 1 ↔
    ∀ earlier start later pid, trace = earlier ++ start :: later → start.started? = some pid →
      ∀ other ∈ earlier, other.started? = none := by
  constructor
  · rintro hLength earlier start later pid rfl hStarted
    rw [List.filterMap_append, List.filterMap_cons_some hStarted, List.length_append,
      List.length_cons] at hLength
    exact List.filterMap_eq_nil_iff.mp (List.eq_nil_of_length_eq_zero (by omega))
  · intro hNone
    rcases unstarted_or_last trace with hUnstarted | ⟨pid, later, earlier, start, hTrace, hStarted, hLater⟩
    · simp [List.filterMap_eq_nil_iff.mpr hUnstarted]
    · have hEarlier := hNone earlier start later pid hTrace hStarted
      rw [hTrace, List.filterMap_append, List.filterMap_cons_some hStarted,
        List.filterMap_eq_nil_iff.mpr hEarlier, List.filterMap_eq_nil_iff.mpr hLater]
      simp

open Lineage

/-- In every run the lines of the first child reach the handler, and of no other. Of a later child the
standard error is read if a stop or a kill has ended since the start before it, and closed at once if
none has. So the lines of all children reach the handler exactly if at most one is started, and each
standard error is read exactly if a stop or a kill ends between each two starts. -/
theorem only_first_child_heard (hRun : Run (.create program grace true) trace l) :
    (∀ earlier start later pid, trace = earlier ++ start :: later → start.started? = some pid →
      ((∀ other ∈ earlier, other.started? = none) → start.outlet pid = .heard) ∧
      ∀ prev since, Last earlier prev since →
        start.outlet pid = if since.any Step.ends then .drained else .closed) ∧
    (∀ earlier step later, trace = earlier ++ step :: later → step.lines ≠ [] →
      ∃ pid bytes, hearing earlier = .listening pid bytes ∧
        ((∃ more, step.event = .errorOutput pid more) ∨ step.event = .errorEnd pid)) ∧
    ((∀ start ∈ trace, ∀ pid, start.started? = some pid → start.outlet pid = .heard) ↔
      (trace.filterMap Step.started?).length ≤ 1) ∧
    ((∀ start ∈ trace, ∀ pid, start.started? = some pid → start.outlet pid ≠ .closed) ↔
      ∀ earlier start later pid prev since, trace = earlier ++ start :: later →
        start.started? = some pid → Last earlier prev since → since.any Step.ends = true) := by
  refine ⟨fun earlier start later pid => hRun.outlet, ?_, ?_, ?_⟩
  · intro earlier step later hTrace hLines
    obtain ⟨hBefore, hStep, -⟩ := hRun.cut hTrace
    exact hBefore.hears.1.listening hStep hLines
  · rw [started_length_le_one_iff]
    constructor
    · intro hHeard earlier start later pid hTrace hStarted
      have hThis := hHeard start (by simp [hTrace]) pid hStarted
      rcases unstarted_or_last earlier with hNone | ⟨prev, since, hLast⟩
      · exact hNone
      · rw [(hRun.outlet hTrace hStarted).2 prev since hLast] at hThis
        split at hThis <;> cases hThis
    · intro hNone start hStart pid hStarted
      obtain ⟨earlier, later, hTrace⟩ := List.append_of_mem hStart
      exact (hRun.outlet hTrace hStarted).1 (hNone earlier start later pid hTrace hStarted)
  · constructor
    · intro hOpen earlier start later pid prev since hTrace hStarted hLast
      have hThis := hOpen start (by simp [hTrace]) pid hStarted
      rw [(hRun.outlet hTrace hStarted).2 prev since hLast] at hThis
      split at hThis
      · assumption
      · exact absurd rfl hThis
    · intro hEnded start hStart pid hStarted
      obtain ⟨earlier, later, hTrace⟩ := List.append_of_mem hStart
      obtain ⟨hFirst, hLater⟩ := hRun.outlet hTrace hStarted
      rcases unstarted_or_last earlier with hNone | ⟨prev, since, hLast⟩
      · rw [hFirst hNone]
        decide
      · rw [hLater prev since hLast,
          if_pos (hEnded earlier start later pid prev since hTrace hStarted hLast)]
        decide

/-- A child writes a line and exits, a second one is started and killed, and a third one writes a
line. -/
def threeChildren : Option (List Step × Lineage) :=
  (create ⟨.ofString "/server", [], none, []⟩ standardGrace true).follow?
    [.start (.ok 1), .errorOutput 1 [0x61, 10], .exit ⟨1, some 0⟩, .start (.ok 2), .kill,
      .start (.ok 3), .errorOutput 3 [0x63, 10]]

theorem threeChildren_shown :
    threeChildren.map (fun run => (run.1.flatMap Step.lines, run.1.filterMap Step.started?,
      run.1.filterMap fun step => step.started?.map step.outlet)) =
      some (["a"], [1, 2, 3], [.heard, .closed, .drained]) := by
  decide

/-- The second child loses its standard error at once, and the lines of the third reach no one. -/
theorem threeChildren_unheard :
    ∃ trace l, threeChildren = some (trace, l) ∧ trace.flatMap Step.lines = ["a"] ∧
      ¬ ∀ start ∈ trace, ∀ pid, start.started? = some pid → start.outlet pid = .heard := by
  obtain ⟨⟨trace, l⟩, hEval, hShown⟩ := Option.map_eq_some_iff.mp threeChildren_shown
  obtain ⟨hLines, hRest⟩ := Prod.mk.inj hShown
  obtain ⟨hStarted, -⟩ := Prod.mk.inj hRest
  obtain ⟨-, -, hIff, -⟩ := only_first_child_heard (run_of_follow? hEval)
  refine ⟨trace, l, hEval, hLines, fun hHeard => ?_⟩
  have hOne := hIff.mp hHeard
  rw [hStarted] at hOne
  revert hOne
  decide

/-- A child that is started behind another that has exited by itself loses its standard error. -/
theorem child_behind_exit_unheard :
    ¬ ∀ trace l, Run (create ⟨.ofString "/server", [], none, []⟩ standardGrace true) trace l →
      ∀ start ∈ trace, ∀ pid, start.started? = some pid → start.outlet pid ≠ .closed := by
  intro hAlways
  obtain ⟨⟨trace, l⟩, hEval, hShown⟩ := Option.map_eq_some_iff.mp threeChildren_shown
  obtain ⟨-, hRest⟩ := Prod.mk.inj hShown
  obtain ⟨-, hOutlets⟩ := Prod.mk.inj hRest
  have hClosed : Outlet.closed ∈ trace.filterMap fun step => step.started?.map step.outlet := by
    rw [hOutlets]
    decide
  obtain ⟨start, hStart, hOutlet⟩ := List.mem_filterMap.mp hClosed
  obtain ⟨pid, hStarted, hIsClosed⟩ := Option.map_eq_some_iff.mp hOutlet
  exact hAlways trace l (run_of_follow? hEval) start hStart pid hStarted hIsClosed

end EditorBridge.Process
