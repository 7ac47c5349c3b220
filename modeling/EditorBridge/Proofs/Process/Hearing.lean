import EditorBridge.Proofs.Process.Effects
import EditorBridge.Proofs.Process.ErrorLines
/-!
What the handler of lines hears. It hears the standard error of the first child, until the child
closes it or a stop or a kill comes to its end. Of what was read of it by then it is told the
complete lines, and the last one as well where the stream has ended, up to the first line that is not
well-formed text. At that line the monitor goes and the child loses its standard error.
-/
namespace EditorBridge.Process

/-- How far the standard error of the first child was read, and whether it still is. Of a later child
whose standard error is closed at once nothing is read. -/
inductive Hearing where
  | unstarted
  | listening (pid : Nat) (bytes : List UInt8)
  /-- It was read to its end, or else a stop or a kill was first. -/
  | settled (bytes : List UInt8) (whole : Bool)
deriving DecidableEq, Repr

namespace Hearing

def next (hearing : Hearing) (step : Step) : Hearing :=
  match hearing with
  | unstarted =>
    match step.started? with
    | some pid => listening pid []
    | none => unstarted
  | listening pid bytes =>
    if step.ends then settled bytes false
    else
      match step.event with
      | .errorOutput other more => if other = pid then listening pid (bytes ++ more) else hearing
      | .errorEnd other => if other = pid then settled bytes true else hearing
      | _ => hearing
  | settled .. => hearing

/-- The lines that were read. -/
def lines : Hearing → List (List UInt8)
  | unstarted => []
  | listening _ bytes => completeLines bytes
  | settled bytes whole => if whole then linesOf bytes else completeLines bytes

def told (hearing : Hearing) : List String := reported (hearing.lines.takeWhile Utf8.isText)

end Hearing

def hearing (trace : List Step) : Hearing := trace.foldl Hearing.next .unstarted

variable {trace : List Step} {l n : Lineage} {event : Event} {m : Manager} {pid : Nat}

namespace Manager

variable {f : ErrorLines → ErrorLines × List String}

/-- What comes from a child without a monitor is lost. -/
theorem onMonitor_absent (h : ∀ monitor ∈ m.monitors, monitor.pid ≠ pid) :
    m.onMonitor pid f = (m, []) := by
  have hNone : m.monitors.find? (·.pid == pid) = none := by simpa using h
  unfold onMonitor
  rw [hNone]

theorem onMonitor_only {r : ErrorLines} (h : m.monitors = [⟨pid, true, r⟩]) :
    (m.onMonitor pid f).1.monitors = (if (f r).1.reading then [⟨pid, true, (f r).1⟩] else []) ∧
      (m.onMonitor pid f).2.filterMap Effect.line? = (f r).2 := by
  have hFind : m.monitors.find? (·.pid == pid) = some ⟨pid, true, r⟩ := by simp [h]
  have hLines (texts : List String) : (texts.map Effect.line).filterMap Effect.line? = texts := by
    simp [List.filterMap_map, Function.comp_def, Effect.line?]
  unfold onMonitor
  rw [hFind]
  cases hReading : (f r).1.reading with
  | true => simp [hReading, h, hLines]
  | false => simp [hReading, h, hLines, List.filterMap_append, Effect.line?]

/-- Monitors that only drain a stream hand on nothing. -/
theorem onMonitor_draining (h : ∀ monitor ∈ m.monitors, monitor.forwards = false) (pid : Nat)
    (f : ErrorLines → ErrorLines × List String) :
    (∀ monitor ∈ (m.onMonitor pid f).1.monitors, monitor.forwards = false) ∧
      (m.onMonitor pid f).2.filterMap Effect.line? = [] := by
  unfold onMonitor
  cases hFind : m.monitors.find? (·.pid == pid) with
  | none => exact ⟨h, rfl⟩
  | some monitor =>
    have hDrains := h monitor (List.mem_of_find?_eq_some hFind)
    cases hReading : (f monitor.lines).1.reading with
    | true =>
      simp only [hReading, hDrains, if_true, Bool.false_eq_true, if_false]
      refine ⟨?_, rfl⟩
      intro other hOther
      obtain ⟨old, hOld, rfl⟩ := List.mem_map.mp hOther
      split <;> exact h old hOld
    | false =>
      simp only [hReading, hDrains, Bool.false_eq_true, if_false]
      exact ⟨fun other hOther => h other ((List.mem_filter.mp hOther).1), rfl⟩

theorem onMonitor_ears (m : Manager) (pid : Nat) (f : ErrorLines → ErrorLines × List String) :
    (m.onMonitor pid f).1.handlerWaits = m.handlerWaits ∧
      (m.onMonitor pid f).1.monitored = m.monitored := by
  obtain ⟨monitors, hSame⟩ := m.onMonitor_eq pid f
  rw [hSame]
  exact ⟨rfl, rfl⟩

theorem dropMonitor_ears (m : Manager) :
    m.dropMonitor.1.handlerWaits = m.handlerWaits ∧ m.dropMonitor.1.monitored = none ∧
      ∀ monitor ∈ m.dropMonitor.1.monitors,
        monitor ∈ m.monitors ∧ m.monitored ≠ some monitor.pid := by
  unfold dropMonitor
  cases hMonitored : m.monitored with
  | none => exact ⟨rfl, hMonitored, fun monitor hMonitor => ⟨hMonitor, by simp⟩⟩
  | some pid =>
    refine ⟨rfl, rfl, fun monitor hMonitor => ?_⟩
    obtain ⟨hOld, hOther⟩ := List.mem_filter.mp hMonitor
    refine ⟨hOld, fun hSame => ?_⟩
    simp [Option.some.inj hSame] at hOther

end Manager

open Lineage

/-- Is this about the standard error of a child? -/
def Event.isOutput : Event → Bool
  | .errorOutput .. | .errorEnd _ => true
  | _ => false

/-- Only what comes of the standard error of a child is handed on. -/
theorem lines_of_does {effects : List Effect} (hDoes : l.Does event n effects)
    (hQuiet : event.isOutput = false) : effects.filterMap Effect.line? = [] := by
  have hDropped := lines_of_closes l.manager.dropConnection_closes
  cases hDoes with
  | started =>
    rw [List.filterMap_append, hDropped, List.nil_append]
    exact lines_of_closes (Manager.monitor_closes _ _)
  | asked =>
    rw [List.filterMap_append, hDropped]
    rfl
  | forced =>
    rw [List.filterMap_append, hDropped, List.nil_append, List.filterMap_cons_none rfl]
    exact lines_of_closes (Manager.dropMonitor_closes _)
  | stopped => exact lines_of_closes l.manager.dropMonitor_closes
  | overdue =>
    rw [List.filterMap_cons_none rfl]
    exact lines_of_closes l.manager.dropMonitor_closes
  | killed =>
    rw [List.filterMap_cons_none rfl]
    exact lines_of_closes l.manager.dropMonitor_closes
  | output => cases hQuiet
  | outputEnd => cases hQuiet
  | _ => rfl

namespace Hearing

variable {step : Step}

/-- A step that neither starts a child nor ends a stop or a kill, nor is about a standard error. -/
theorem next_quiet (hearing : Hearing) (hStarted : step.started? = none)
    (hEnds : step.ends = false) (hQuiet : step.event.isOutput = false) :
    hearing.next step = hearing := by
  cases hearing with
  | unstarted => simp only [next, hStarted]
  | listening pid bytes =>
    simp only [next, hEnds, Bool.false_eq_true, if_false]
    cases hEvent : step.event with
    | errorOutput | errorEnd => simp [Event.isOutput, hEvent] at hQuiet
    | _ => rfl
  | settled bytes whole => rfl

/-- What comes from another child than the one that is heard. -/
theorem next_other (hearing : Hearing)
    (hEvent : (∃ more, step.event = .errorOutput pid more) ∨ step.event = .errorEnd pid)
    (hOther : ∀ bytes, hearing ≠ .listening pid bytes) : hearing.next step = hearing := by
  cases hearing with
  | unstarted => rcases hEvent with ⟨more, hEvent⟩ | hEvent <;> simp [next, Step.started?, hEvent]
  | listening child bytes =>
    have hChild : pid ≠ child := by
      rintro rfl
      exact hOther bytes rfl
    rcases hEvent with ⟨more, hEvent⟩ | hEvent <;> simp [next, Step.ends, hEvent, hChild]
  | settled bytes whole => rfl

end Hearing

/-- What the manager holds while the first child is heard so far. -/
def Hears (m : Manager) : Hearing → Prop
  | .unstarted => m.handlerWaits = true ∧ m.monitored = none ∧ m.monitors = []
  | .listening pid bytes => m.handlerWaits = false ∧ m.monitored = some pid ∧
      m.monitors = if (ErrorLines.empty.feed bytes).1.reading then
        [⟨pid, true, (ErrorLines.empty.feed bytes).1⟩] else []
  | .settled .. => m.handlerWaits = false ∧ ∀ monitor ∈ m.monitors, monitor.forwards = false

theorem hears_create (program : Program) (grace : Duration) :
    Hears (.create program grace true) .unstarted :=
  ⟨rfl, rfl, rfl⟩

namespace Hears

variable {hearing : Hearing} {m' : Manager}

theorem keep (hHears : Hears m hearing) (hWaits : m'.handlerWaits = m.handlerWaits)
    (hMonitored : m'.monitored = m.monitored) (hMonitors : m'.monitors = m.monitors) :
    Hears m' hearing := by
  cases hearing <;> simpa only [Hears, hWaits, hMonitored, hMonitors] using hHears

/-- A stop or a kill ends: the monitor goes. -/
theorem drop {step : Step} (hHears : Hears m hearing) (hStarted : step.started? = none)
    (hEnds : step.ends = true) (hWaits : m'.handlerWaits = m.handlerWaits)
    (hNone : m'.monitored = none)
    (hMonitors : ∀ monitor ∈ m'.monitors, monitor ∈ m.monitors ∧ m.monitored ≠ some monitor.pid) :
    Hears m' (hearing.next step) ∧ (hearing.next step).told = hearing.told := by
  cases hearing with
  | unstarted =>
    obtain ⟨hWaiting, -, hNothing⟩ := hHears
    have hNext : Hearing.unstarted.next step = .unstarted := by simp only [Hearing.next, hStarted]
    rw [hNext]
    refine ⟨⟨hWaits.trans hWaiting, hNone, ?_⟩, rfl⟩
    rw [List.eq_nil_iff_forall_not_mem]
    intro monitor hMonitor
    simpa [hNothing] using (hMonitors monitor hMonitor).1
  | listening pid bytes =>
    obtain ⟨hTaken, hMonitored, hOnly⟩ := hHears
    have hNext : (Hearing.listening pid bytes).next step = .settled bytes false := if_pos hEnds
    rw [hNext]
    refine ⟨⟨hWaits.trans hTaken, fun monitor hMonitor => ?_⟩, rfl⟩
    obtain ⟨hOld, hOther⟩ := hMonitors monitor hMonitor
    rw [hOnly] at hOld
    split at hOld
    · obtain rfl := List.mem_singleton.mp hOld
      exact absurd hMonitored hOther
    · simp at hOld
  | settled bytes whole =>
    exact ⟨⟨hWaits.trans hHears.1, fun monitor h => hHears.2 _ (hMonitors monitor h).1⟩, rfl⟩

/-- A child is started: the first one is heard, and no later one. -/
theorem start {step : Step} (hHears : Hears m hearing) (hStarted : step.started? = some pid) :
    Hears (m.monitor pid).1 (hearing.next step) ∧ (hearing.next step).told = hearing.told := by
  cases hearing with
  | unstarted =>
    obtain ⟨hWaiting, hNone, hNothing⟩ := hHears
    have hNext : Hearing.unstarted.next step = .listening pid [] := by
      simp only [Hearing.next, hStarted]
    have hMonitor : (m.monitor pid).1.handlerWaits = false ∧ (m.monitor pid).1.monitored = some pid ∧
        (m.monitor pid).1.monitors = [⟨pid, true, .empty⟩] := by
      simp [Manager.monitor, hNone, hNothing, hWaiting]
    rw [hNext]
    exact ⟨hMonitor, by simp [Hearing.told, Hearing.lines, completeLines_last]⟩
  | listening other bytes =>
    have hNext : (Hearing.listening other bytes).next step = .listening other bytes := by
      unfold Step.started? at hStarted
      split at hStarted
      · rename_i hEvent
        simp [Hearing.next, Step.ends, hEvent]
      · cases hStarted
    have hMonitor : (m.monitor pid).1 = m := by simp only [Manager.monitor, hHears.2.1]
    rw [hNext, hMonitor]
    exact ⟨hHears, rfl⟩
  | settled bytes whole =>
    refine ⟨?_, rfl⟩
    obtain ⟨hTaken, hDrain⟩ := hHears
    cases hMonitored : m.monitored with
    | none =>
      have hMonitor : (m.monitor pid).1.handlerWaits = false ∧
          (m.monitor pid).1.monitors = m.monitors ++ [⟨pid, false, .empty⟩] := by
        simp [Manager.monitor, hMonitored, hTaken]
      refine ⟨hMonitor.1, fun monitor h => ?_⟩
      rw [hMonitor.2] at h
      rcases List.mem_append.mp h with hOld | hNew
      · exact hDrain monitor hOld
      · rw [List.mem_singleton.mp hNew]
    | some other =>
      have hMonitor : (m.monitor pid).1 = m := by simp only [Manager.monitor, hMonitored]
      rw [hMonitor]
      exact ⟨hTaken, hDrain⟩

/-- What the monitor of the first child makes of anything that a reader can do. -/
theorem onMonitor {bytes : List UInt8} (hHears : Hears m (.listening pid bytes))
    (f : ErrorLines → ErrorLines × List String) (hStopped : f ⟨[], false⟩ = (⟨[], false⟩, [])) :
    (m.onMonitor pid f).1.monitors =
        (if (f (ErrorLines.empty.feed bytes).1).1.reading then
          [⟨pid, true, (f (ErrorLines.empty.feed bytes).1).1⟩] else []) ∧
      (m.onMonitor pid f).2.filterMap Effect.line? = (f (ErrorLines.empty.feed bytes).1).2 := by
  obtain ⟨-, -, hMonitors⟩ := hHears
  cases hReading : (ErrorLines.empty.feed bytes).1.reading with
  | true =>
    rw [hReading, if_pos rfl] at hMonitors
    exact Manager.onMonitor_only hMonitors
  | false =>
    rw [hReading] at hMonitors
    have hNothing : m.monitors = [] := hMonitors
    rw [Manager.onMonitor_absent (by simp [hNothing]), ErrorLines.feed_stops hReading, hStopped]
    exact ⟨hNothing, rfl⟩

/-- What comes from another child than the one that is heard is lost. -/
theorem onMonitor_other (hHears : Hears m hearing)
    (hOther : ∀ bytes, hearing ≠ .listening pid bytes)
    (f : ErrorLines → ErrorLines × List String) :
    Hears (m.onMonitor pid f).1 hearing ∧ (m.onMonitor pid f).2.filterMap Effect.line? = [] := by
  cases hearing with
  | unstarted =>
    rw [Manager.onMonitor_absent (by simp [hHears.2.2])]
    exact ⟨hHears, rfl⟩
  | listening child bytes =>
    have hAbsent : ∀ monitor ∈ m.monitors, monitor.pid ≠ pid := by
      intro monitor hMonitor
      rw [hHears.2.2] at hMonitor
      split at hMonitor
      · rw [List.mem_singleton.mp hMonitor]
        rintro rfl
        exact hOther bytes rfl
      · simp at hMonitor
    rw [Manager.onMonitor_absent hAbsent]
    exact ⟨hHears, rfl⟩
  | settled bytes whole =>
    obtain ⟨hDrain, hSilent⟩ := Manager.onMonitor_draining hHears.2 pid f
    exact ⟨⟨(m.onMonitor_ears pid f).1.trans hHears.1, hDrain⟩, hSilent⟩

theorem output {step : Step} {more : List UInt8} (hHears : Hears m hearing)
    (hEvent : step.event = .errorOutput pid more) :
    Hears (m.errorOutput pid more).1 (hearing.next step) ∧ (hearing.next step).told =
      hearing.told ++ (m.errorOutput pid more).2.filterMap Effect.line? := by
  have hEars := m.onMonitor_ears pid (·.feed more)
  by_cases hOwn : ∃ bytes, hearing = .listening pid bytes
  · obtain ⟨bytes, rfl⟩ := hOwn
    have hNext : (Hearing.listening pid bytes).next step = .listening pid (bytes ++ more) := by
      simp [Hearing.next, Step.ends, hEvent]
    obtain ⟨hMonitors, hLines⟩ := hHears.onMonitor (·.feed more) (ErrorLines.feed_stopped [] more)
    have hFeed := ErrorLines.feed_append .empty bytes more
    rw [hNext]
    refine ⟨⟨hEars.1.trans hHears.1, hEars.2.trans hHears.2.1, ?_⟩, ?_⟩
    · rw [hFeed]
      exact hMonitors
    · rw [Manager.errorOutput, hLines]
      simp only [Hearing.told, Hearing.lines, ← ErrorLines.feed_lines, hFeed]
  · have hOther := not_exists.mp hOwn
    have hNext := hearing.next_other (.inl ⟨more, hEvent⟩) hOther
    obtain ⟨hSame, hSilent⟩ := hHears.onMonitor_other hOther (·.feed more)
    rw [hNext, Manager.errorOutput, hSilent]
    exact ⟨hSame, by simp⟩

theorem outputEnd {step : Step} (hHears : Hears m hearing) (hEvent : step.event = .errorEnd pid) :
    Hears (m.errorEnd pid).1 (hearing.next step) ∧
      (hearing.next step).told = hearing.told ++ (m.errorEnd pid).2.filterMap Effect.line? := by
  have hEars := m.onMonitor_ears pid (·.finish)
  by_cases hOwn : ∃ bytes, hearing = .listening pid bytes
  · obtain ⟨bytes, rfl⟩ := hOwn
    have hNext : (Hearing.listening pid bytes).next step = .settled bytes true := by
      simp [Hearing.next, Step.ends, hEvent]
    obtain ⟨hMonitors, hLines⟩ := hHears.onMonitor (·.finish) rfl
    simp only [ErrorLines.finish_stops] at hMonitors
    rw [hNext]
    refine ⟨⟨hEars.1.trans hHears.1, ?_⟩, ?_⟩
    · rw [Manager.errorEnd, hMonitors]
      simp
    · rw [Manager.errorEnd, hLines]
      simp only [Hearing.told, Hearing.lines, ← ErrorLines.feed_lines, if_true,
        ← ErrorLines.feed_finish]
  · have hOther := not_exists.mp hOwn
    have hNext := hearing.next_other (.inr hEvent) hOther
    obtain ⟨hSame, hSilent⟩ := hHears.onMonitor_other hOther (·.finish)
    rw [hNext, Manager.errorEnd, hSilent]
    exact ⟨hSame, by simp⟩

/-- One step: what is handed on is what is newly told. -/
theorem step (hHears : Hears l.manager hearing) (h : l.next? event = some n) :
    Hears n.manager (hearing.next ⟨l, event, n⟩) ∧
      (hearing.next ⟨l, event, n⟩).told = hearing.told ++ Step.lines ⟨l, event, n⟩ := by
  have hDoes := Lineage.does_of_next? h
  have hLines := lines_of_does hDoes
  unfold Step.lines Step.effects
  generalize l.effects event = effects at hDoes hLines
  have hKeep (hStarted : Step.started? ⟨l, event, n⟩ = none) (hEnds : Step.ends ⟨l, event, n⟩ = false)
      (hQuiet : event.isOutput = false)
      (hWaits : n.manager.handlerWaits = l.manager.handlerWaits)
      (hMonitored : n.manager.monitored = l.manager.monitored)
      (hMonitors : n.manager.monitors = l.manager.monitors) :
      Hears n.manager (hearing.next ⟨l, event, n⟩) ∧
        (hearing.next ⟨l, event, n⟩).told = hearing.told ++ effects.filterMap Effect.line? := by
    rw [hearing.next_quiet hStarted hEnds hQuiet, hLines hQuiet]
    exact ⟨hHears.keep hWaits hMonitored hMonitors, by simp⟩
  have hDrop (hStarted : Step.started? ⟨l, event, n⟩ = none) (hEnds : Step.ends ⟨l, event, n⟩ = true)
      (hQuiet : event.isOutput = false)
      (hEars : n.manager.handlerWaits = l.manager.handlerWaits ∧ n.manager.monitored = none ∧
        ∀ monitor ∈ n.manager.monitors, monitor ∈ l.manager.monitors ∧
          l.manager.monitored ≠ some monitor.pid) :
      Hears n.manager (hearing.next ⟨l, event, n⟩) ∧
        (hearing.next ⟨l, event, n⟩).told = hearing.told ++ effects.filterMap Effect.line? := by
    obtain ⟨hWaits, hNone, hMonitors⟩ := hEars
    obtain ⟨hAfter, hTold⟩ := hHears.drop hStarted hEnds hWaits hNone hMonitors
    rw [hLines hQuiet, hTold]
    exact ⟨hAfter, by simp⟩
  cases hDoes with
  | notStarted hRefused => exact hKeep (started?_of_refused hRefused) rfl rfl rfl rfl rfl
  | @started pid hRest hIdle hNew =>
    have hStarted : Step.started? ⟨l, .start (.ok pid), ⟨((l.manager.launched pid).monitor pid).1,
        pid :: l.children, some (.fresh pid)⟩⟩ = some pid := by
      simp [Step.started?, hIdle]
    have hLaunched : Hears (l.manager.launched pid) hearing := hHears.keep rfl rfl rfl
    obtain ⟨hAfter, hTold⟩ := hLaunched.start hStarted
    rw [hLines rfl, hTold]
    exact ⟨hAfter, by simp⟩
  | notStopped hIdle =>
    exact hKeep rfl (ends_of_refused hIdle _) rfl rfl rfl rfl
  | asked hRest hRunning => exact hKeep rfl rfl rfl rfl rfl rfl
  | forced hRest hRunning =>
    exact hDrop rfl (Manager.isRunning_iff.mpr ⟨_, hRunning⟩) rfl
      l.manager.dropConnection.1.dropMonitor_ears
  | stopped => exact hDrop rfl rfl rfl l.manager.dropMonitor_ears
  | overdue => exact hDrop rfl rfl rfl l.manager.dropMonitor_ears
  | notKilled hIdle => exact hKeep rfl hIdle rfl rfl rfl rfl
  | killed hRest hRunning =>
    exact hDrop rfl (Manager.isRunning_iff.mpr ⟨_, hRunning⟩) rfl l.manager.dropMonitor_ears
  | output => exact hHears.output rfl
  | outputEnd => exact hHears.outputEnd rfl
  | _ => exact hKeep rfl rfl rfl rfl rfl rfl

end Hears

/-- In a run all that is handed on is what was told by then. -/
theorem Run.hears {program : Program} {grace : Duration}
    (hRun : Run (.create program grace true) trace l) :
    Hears l.manager (hearing trace) ∧ (hearing trace).told = trace.flatMap Step.lines := by
  induction hRun with
  | start => exact ⟨hears_create program grace, rfl⟩
  | @step trace m n event prior last ih =>
    obtain ⟨hHears, hTold⟩ := ih
    obtain ⟨hAfter, hMore⟩ := hHears.step last
    have hNext : hearing (trace ++ [⟨m, event, n⟩]) = (hearing trace).next ⟨m, event, n⟩ := by
      simp [hearing]
    rw [hNext]
    refine ⟨hAfter, ?_⟩
    rw [hMore, hTold, List.flatMap_append, List.flatMap_singleton]

/-- In every run the handler receives, in order and once each, the lines that were read of the
standard error of the first child, without the blank ones, up to the first line that is not
well-formed text; so it receives all of them, with what is not text replaced, exactly if all are. The
child keeps the monitor of its standard error exactly as long. Of a stream that was read to its end
it receives all lines, the last one included if it has no line feed, exactly if the whole stream is
well-formed. -/
theorem error_lines_told_iff {program : Program} {grace : Duration}
    (hRun : Run (.create program grace true) trace l) :
    trace.flatMap Step.lines = reported ((hearing trace).lines.takeWhile Utf8.isText) ∧
    (trace.flatMap Step.lines = reported (hearing trace).lines ↔
      ∀ line ∈ (hearing trace).lines, Utf8.isText line) ∧
    (∀ pid bytes, hearing trace = .listening pid bytes →
      ((∃ monitor ∈ l.manager.monitors, monitor.pid = pid) ↔
        ∀ line ∈ completeLines bytes, Utf8.isText line)) ∧
    ∀ bytes, hearing trace = .settled bytes true →
      (trace.flatMap Step.lines = reported (linesOf bytes) ↔ Utf8.isText bytes) := by
  obtain ⟨hHears, hTold⟩ := hRun.hears
  rw [← hTold]
  refine ⟨rfl, reported_takeWhile_eq_iff, ?_, ?_⟩
  · intro pid bytes hListening
    rw [hListening] at hHears
    rw [hHears.2.2, ErrorLines.feed_reading, ← List.all_eq_true]
    cases (completeLines bytes).all Utf8.isText <;> simp
  · intro bytes hSettled
    rw [hSettled, ← all_isText_linesOf, List.all_eq_true]
    exact reported_takeWhile_eq_iff

/-- A child writes three lines, of which the second is no text, and closes its standard error. -/
def strayByte : Option (List Step × Lineage) :=
  (create ⟨.ofString "/server", [], none, []⟩ standardGrace true).follow?
    [.start (.ok 1), .errorOutput 1 [0x78, 10, 0xff], .errorOutput 1 [10, 0x79, 10], .errorEnd 1]

theorem strayByte_shown : strayByte.map (fun run => (run.1.flatMap Step.lines, hearing run.1)) =
    some (["x"], .settled [0x78, 10, 0xff, 10, 0x79, 10] true) := by
  decide

/-- Only the first of them is handed on. -/
theorem strayByte_silences :
    ∃ trace l, strayByte = some (trace, l) ∧ trace.flatMap Step.lines = ["x"] ∧
      trace.flatMap Step.lines ≠ reported (hearing trace).lines := by
  obtain ⟨⟨trace, l⟩, hEval, hShown⟩ := Option.map_eq_some_iff.mp strayByte_shown
  obtain ⟨hLines, hHearing⟩ := Prod.mk.inj hShown
  obtain ⟨-, hIff, -⟩ := error_lines_told_iff (run_of_follow? hEval)
  refine ⟨trace, l, hEval, hLines, fun hAll => ?_⟩
  have hBroken : [0xff] ∈ (hearing trace).lines := by
    rw [hHearing]
    decide
  have hText := hIff.mp hAll [0xff] hBroken
  revert hText
  decide

/-- A byte that is no text costs the handler the lines behind it. -/
theorem stray_byte_ends_lines :
    ¬ ∀ trace l bytes, Run (create ⟨.ofString "/server", [], none, []⟩ standardGrace true) trace l →
      hearing trace = .settled bytes true → trace.flatMap Step.lines = reported (linesOf bytes) := by
  intro hAlways
  obtain ⟨⟨trace, l⟩, hEval, hShown⟩ := Option.map_eq_some_iff.mp strayByte_shown
  obtain ⟨-, hHearing⟩ := Prod.mk.inj hShown
  have hRun := run_of_follow? hEval
  have hTold := hRun.hears.2
  rw [hAlways trace l _ hRun hHearing, hHearing] at hTold
  have hText := reported_takeWhile_eq_iff.mp hTold [0xff] (by decide)
  revert hText
  decide

end EditorBridge.Process
