import EditorBridge.Proofs.Lsp.FileUri
import EditorBridge.Proofs.Session.WatchedFiles
/-!
The paths that a session has to name to its server. A start names the root of its workspace, and a
call that tells changes names the file of each. An absolute path has a file URI exactly if it has
none of four bytes; a root without one fails the start, and a file without one keeps all changes of
its call from being told.
-/
namespace EditorBridge

namespace Lsp

variable {root : Path} {processId : Json} {clientName : String}

theorem handshakeParams_of_unnamed (h : ¬ Uri.Nameable root) :
    handshakeParams processId clientName (some root) = .error ⟨root⟩ := by
  have hUri : fileUri root = .error ⟨root⟩ := fileUri_eq_error_iff.mpr ⟨h, rfl⟩
  simp only [handshakeParams, hUri]
  rfl

theorem handshakeParams_of_named (processId : Json) (clientName : String) {root : Option Path}
    (h : ∀ path, root = some path → Uri.Nameable path) :
    ∃ params, handshakeParams processId clientName root = .ok params := by
  cases root with
  | none => exact ⟨_, rfl⟩
  | some path =>
    have hUri := fileUri_of_nameable (h path rfl)
    simp only [handshakeParams, hUri]
    exact ⟨_, rfl⟩

/-- The first call of a client that is not initialized is sent unless the connection takes nothing
more. -/
theorem Client.askHandshake_of_open {c : Client} (params : Json)
    (hInitialized : c.initialized = false) (hOpen : c.rpc.refusal? = none) :
    ∃ d, c.askHandshake params = (d, .ok c.rpc.nextId) := by
  have hNext : ({ c.rpc with nextId := c.rpc.nextId + 1 } : Rpc.Client).refusal? = none := hOpen
  simp [askHandshake, hInitialized, ask, Rpc.Client.call, Rpc.Client.enqueue, hNext]

end Lsp

namespace Session

/-- What comes of the paths that a manager has to name. -/
structure NamesPaths (p : Profile) (s : State) : Prop where
  named : ∀ path, (∃ uri, Lsp.fileUri path = .ok uri) ↔ Uri.Nameable path
  uri : ∀ path uri, Lsp.fileUri path = .ok uri ↔
    path.isAbsolute = true ∧ uri = Uri.fileText path ∧ Uri.checkReference uri = .ok ()
  refused : ∀ path fault, Lsp.fileUri path = .error fault ↔ ¬ Uri.Nameable path ∧ fault = ⟨path⟩
  /-- The task of an attempt that is connected fails at a root without a URI. -/
  unnamedRoot : ∀ k a root, s.attempts[k]? = some a → a.phase = .connected →
    a.server.cwd = some root → ¬ Uri.Nameable root →
    ∃ t, s.next? p (.task k) = some t ∧ t.phase? k = some .finished ∧
      t.status = .failed (Error.message (.lsp (.noUri ⟨root⟩)))
  /-- Otherwise it asks for the handshake, unless the connection takes nothing more. -/
  namedRoot : ∀ k a, s.attempts[k]? = some a → a.phase = .connected →
    (∀ root, a.server.cwd = some root → Uri.Nameable root) →
    ∃ c, a.client = some c ∧ (c.rpc.refusal? = none →
      ∃ t, s.next? p (.task k) = some t ∧ t.phase? k = some (.handshaking 1) ∧
        t.status = s.status)
  /-- A call is refused for the first file without a URI among those that the filter accepts. -/
  unnamedFile : ∀ changes path,
    s.call p (.watchedFiles changes) = .answered (.error (.lsp (.noUri ⟨path⟩))) ↔
      ∃ before kind after, s.watched p changes = before ++ (path, kind) :: after ∧
        (∀ change ∈ before, Uri.Nameable change.1) ∧ ¬ Uri.Nameable path
  /-- Otherwise a session that is up is told all of them. -/
  namedFiles : ∀ changes, (∀ change ∈ s.watched p changes, Uri.Nameable change.1) →
    ∀ trace result t k, Served p s (.watchedFiles changes) trace result t →
      (∀ step ∈ trace, step.event = .acquire s.nextForward ∨ step.event = .deliver s.nextForward →
        step.before.Serves k) →
      result = .ok (.count (s.watched p changes).length) ∧
      ∀ j, (trace.filter (·.forwards s.nextForward)).flatMap (·.sent j) =
        if j = k ∧ s.watched p changes ≠ [] then
          [(changesNotice ((s.watched p changes).map fun change =>
            (Uri.fileText change.1, change.2))).text]
        else []

variable {p : Profile} {s : State} {a : Attempt} {k : Nat} {past : List Step} {path root : Path}
  {changes : List (Path × Int)}

/-- An attempt that is connected has a client that has asked nothing. -/
theorem Run.connected_client (hRun : Run p (.create p) past s) (hAttempt : s.attempts[k]? = some a)
    (hPhase : a.phase = .connected) :
    ∃ c, a.client = some c ∧ c.initialized = false ∧ c.rpc.nextId = 1 := by
  obtain ⟨said, hCourse⟩ := hRun.course k
  have hStage := hCourse.stage
  have hFace : s.face? k = some (.connected, a.client) := by
    simp [State.face?, hAttempt, hPhase]
  rw [hFace] at hStage
  generalize a.client = client at hStage
  cases hStage with
  | connected hInitialized hNext => exact ⟨_, rfl, hInitialized, hNext⟩

theorem State.task_of_connected {c : Lsp.Client} (hAttempt : s.attempts[k]? = some a)
    (hPhase : a.phase = .connected) (hClient : a.client = some c) :
    s.next? p (.task k) = some (s.askHandshake p k a c) := by
  simp [State.next?, State.startStep?, hAttempt, hPhase, hClient]

/-- A root without a URI fails the start. -/
theorem Run.unnamed_root (hRun : Run p (.create p) past s) (hAttempt : s.attempts[k]? = some a)
    (hPhase : a.phase = .connected) (hRoot : a.server.cwd = some root)
    (hUnnamed : ¬ Uri.Nameable root) :
    ∃ t, s.next? p (.task k) = some t ∧ t.phase? k = some .finished ∧
      t.status = .failed (Error.message (.lsp (.noUri ⟨root⟩))) := by
  obtain ⟨c, hClient, -⟩ := hRun.connected_client hAttempt hPhase
  have hStep := State.task_of_connected (p := p) hAttempt hPhase hClient
  have hFails : s.askHandshake p k a c = s.failStart k (.lsp (.noUri ⟨root⟩)) := by
    simp only [State.askHandshake, hRoot, Lsp.handshakeParams_of_unnamed hUnnamed]
  rw [hFails] at hStep
  exact ⟨_, hStep, State.phase?_failStart _ (by simp [State.phase?, hAttempt]), rfl⟩

/-- Where the root has a URI, or there is no root, the handshake begins. -/
theorem Run.named_root (hRun : Run p (.create p) past s) (hAttempt : s.attempts[k]? = some a)
    (hPhase : a.phase = .connected)
    (hNamed : ∀ root, a.server.cwd = some root → Uri.Nameable root) :
    ∃ c, a.client = some c ∧ (c.rpc.refusal? = none →
      ∃ t, s.next? p (.task k) = some t ∧ t.phase? k = some (.handshaking 1) ∧
        t.status = s.status) := by
  obtain ⟨c, hClient, hInitialized, hNext⟩ := hRun.connected_client hAttempt hPhase
  refine ⟨c, hClient, fun hOpen => ?_⟩
  obtain ⟨params, hParams⟩ := Lsp.handshakeParams_of_named p.processId p.clientName hNamed
  obtain ⟨d, hAsk⟩ := Lsp.Client.askHandshake_of_open params hInitialized hOpen
  refine ⟨_, State.task_of_connected hAttempt hPhase hClient, ?_, ?_⟩
  · simp [State.askHandshake, hParams, hAsk, hNext, State.enter, State.withClient, State.onAttempt,
      State.phase?, hAttempt]
  · simp [State.askHandshake, hParams, hAsk, State.enter, State.withClient, State.onAttempt]

theorem unnamed?_eq_none_iff :
    unnamed? changes = none ↔ ∀ change ∈ changes, Uri.Nameable change.1 := by
  simp [unnamed?, ← Uri.ofPath?_isSome_iff, Option.ne_none_iff_exists']

theorem unnamed?_eq_some_iff : unnamed? changes = some path ↔
    ∃ before kind after, changes = before ++ (path, kind) :: after ∧
      (∀ change ∈ before, Uri.Nameable change.1) ∧ ¬ Uri.Nameable path := by
  have hNone (path : Path) : (Uri.ofPath? path).isNone = true ↔ ¬ Uri.Nameable path := by
    rw [← Uri.ofPath?_isSome_iff]
    cases Uri.ofPath? path <;> simp
  have hSome (change : Path × Int) :
      (!(Uri.ofPath? change.1).isNone) = true ↔ Uri.Nameable change.1 := by
    rw [Bool.not_eq_true', ← Bool.not_eq_true, hNone, not_not]
  rw [unnamed?, Option.map_eq_some_iff]
  simp only [List.find?_eq_some_iff_append, hNone, hSome]
  constructor
  · rintro ⟨⟨_, kind⟩, ⟨hUnnamed, before, after, hSplit, hBefore⟩, rfl⟩
    exact ⟨before, kind, after, hSplit, hBefore, hUnnamed⟩
  · rintro ⟨before, kind, after, hSplit, hBefore, hUnnamed⟩
    exact ⟨(path, kind), ⟨hUnnamed, before, after, hSplit, hBefore⟩, rfl⟩

/-- A call is refused exactly for the first file among its changes that cannot be named. -/
theorem State.call_refused_iff :
    s.call p (.watchedFiles changes) = .answered (.error (.lsp (.noUri ⟨path⟩))) ↔
      unnamed? (s.watched p changes) = some path := by
  have hBegins := s.begins p (.watchedFiles changes)
  generalize s.call p (.watchedFiles changes) = opening at hBegins
  cases hBegins with
  | refused hUnnamed =>
    have hFirst : unnamed? (s.watched p changes) = some _ := hUnnamed
    simp [hFirst]
  | idle hNamed | forwarded hNamed =>
    have hNone : unnamed? (s.watched p changes) = none := hNamed
    simp [hNone]

/-- Where all files can be named, the changes are told under what is written for them. -/
theorem State.acceptedChanges_of_named
    (hNamed : ∀ change ∈ s.watched p changes, Uri.Nameable change.1) :
    s.acceptedChanges p changes =
      .ok ((s.watched p changes).map fun change => (Uri.fileText change.1, change.2)) := by
  rcases named_cases (s.watched p changes) with ⟨path, hUnnamed, -⟩ | ⟨-, events, hEvents, hUris⟩
  · rw [unnamed?_eq_none_iff.mpr hNamed] at hUnnamed
    cases hUnnamed
  · have hTexts : (s.watched p changes).map (fun change => (Uri.ofPath? change.1, change.2)) =
        ((s.watched p changes).map fun change => (Uri.fileText change.1, change.2)).map
          fun e => (some e.1, e.2) := by
      rw [List.map_map]
      refine List.map_congr_left fun change hMem => ?_
      have hUri := Lsp.fileUri_eq_ok_iff.mp (Lsp.fileUri_of_nameable (hNamed change hMem))
      simp [hUri]
    have hSame := (List.map_inj_right (by simp)).mp (hTexts.symm.trans hUris)
    rw [hSame]
    exact hEvents

/-- A manager has trouble with exactly those paths that are not nameable: one such root fails the
start, and one such file keeps the changes of its call from being told. -/
theorem paths_named_iff (hRun : Run p (.create p) past s) : NamesPaths p s where
  named path := Lsp.fileUri_named_iff
  uri path uri := Lsp.fileUri_eq_ok_iff.trans Uri.ofPath?_eq_some_iff
  refused path fault := Lsp.fileUri_eq_error_iff
  unnamedRoot k a root := hRun.unnamed_root
  namedRoot k a := hRun.named_root
  unnamedFile changes path := State.call_refused_iff.trans unnamed?_eq_some_iff
  namedFiles changes hNamed trace result t k hServed hServes := by
    have hTells := hServed.tells hRun (State.acceptedChanges_of_named hNamed) hServes
    simpa only [List.length_map, ne_eq, List.map_eq_nil_iff] using hTells

/-- An attempt for a workspace whose root has brackets in its name. -/
def bracketedRoot : Option (List Step × State) :=
  (State.create watchingProfile).follow? watchingProfile
    [.start (.ofString "/server") (some (.ofString "/proj/[draft]")),
      .launched 0 (.ok (.fresh, none))]

def barredChanges : List (Path × Int) := [(.ofString "/a.java", 1), (.ofString "/b|.java", 2)]

theorem bracketedRoot_shown :
    bracketedRoot.map (fun (_, s) => (s.attempts.map fun a => (a.phase, a.server.cwd),
      s.watched watchingProfile barredChanges)) =
        some ([(.connected, some (.ofString "/proj/[draft]"))], barredChanges) := by
  decide +kernel

theorem bracketedRoot_message :
    Error.message (.lsp (.noUri ⟨.ofString "/proj/[draft]"⟩)) =
      "LSP error: Path cannot be expressed as a file URI: /proj/[draft]" := by
  decide +kernel

theorem bracketedRoot_fails :
    ∃ past s t, bracketedRoot = some (past, s) ∧ s.next? watchingProfile (.task 0) = some t ∧
      t.status = .failed "LSP error: Path cannot be expressed as a file URI: /proj/[draft]" ∧
      s.call watchingProfile (.watchedFiles barredChanges) =
        .answered (.error (.lsp (.noUri ⟨.ofString "/b|.java"⟩))) ∧
      ∃ uri, Lsp.fileUri ⟨[0x2f, 0x25, 0x23, 0x3f, 0xff]⟩ = .ok uri := by
  obtain ⟨⟨past, s⟩, hEval, hShown⟩ := Option.map_eq_some_iff.mp bracketedRoot_shown
  obtain ⟨hAttempts, hWatched⟩ := Prod.mk.inj hShown
  have hNames := paths_named_iff (State.run_of_follow? hEval)
  have hRefused {path : Path} (b : UInt8) (hMem : b ∈ path.bytes)
      (hOne : b ∈ Uri.refusedBytes) : ¬ Uri.Nameable path := fun h => h.allowed b hMem hOne
  obtain ⟨a, hAttempt, hPhase, hRoot⟩ : ∃ a, s.attempts[0]? = some a ∧ a.phase = .connected ∧
      a.server.cwd = some (.ofString "/proj/[draft]") := by
    obtain ⟨a, hAll, hPair⟩ := List.map_eq_singleton_iff.mp hAttempts
    exact ⟨a, by rw [hAll]; rfl, Prod.mk.inj hPair⟩
  obtain ⟨t, hStep, -, hStatus⟩ := hNames.unnamedRoot 0 a _ hAttempt hPhase hRoot
    (hRefused 0x5b (by decide) (by decide))
  have hOther : Uri.Nameable (.ofString "/a.java") := ⟨by decide, by decide +kernel⟩
  have hEscaped : Uri.Nameable ⟨[0x2f, 0x25, 0x23, 0x3f, 0xff]⟩ :=
    ⟨by decide, by simp [Uri.refusedBytes]⟩
  refine ⟨past, s, t, hEval, hStep, bracketedRoot_message ▸ hStatus,
    (hNames.unnamedFile _ _).mpr ?_, (hNames.named _).mpr hEscaped⟩
  exact ⟨[(.ofString "/a.java", 1)], 2, [], hWatched, List.forall_mem_singleton.mpr hOther,
    hRefused 0x7c (by decide) (by decide)⟩

/-- Not every absolute path has a file URI. -/
theorem bracketed_path_unnamed :
    ¬ ∀ path : Path, path.isAbsolute = true → 0 ∉ path.bytes →
      ∃ uri, Lsp.fileUri path = .ok uri := by
  intro h
  have hNamed := Lsp.fileUri_named_iff.mp
    (h (.ofString "/proj/[draft]/Main.java") (by decide) (by decide))
  exact hNamed.allowed 0x5b (by decide) (by decide)

end Session
end EditorBridge
