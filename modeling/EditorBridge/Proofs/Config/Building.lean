import EditorBridge.Proofs.Config.Fields
import EditorBridge.Proofs.Text.Numerals
/-!
What is built from settings. The configuration has for each field the value that was set last, or
the default, and it is built exactly if it is valid. What was built has the options of a client,
unless its glob is refused as a set of globs.
-/
namespace EditorBridge

/-- The text has a character that is not blank. -/
def Visible (text : String) : Prop := ∃ c ∈ text.toList, Text.isBlank c = false

/-- What is asked of a configuration. -/
structure Config.Valid (config : Config) : Prop where
  languageId : Visible config.languageId
  clientName : Visible config.clientName
  settingsSection : Visible config.settingsSection
  outputChannelName : Visible config.outputChannelName
  subdir : Visible config.serverBundle.subdir
  executable : Visible config.serverBundle.executable
  fileEventGlob : ∃ pattern, Glob.parse config.fileEventGlob = .ok pattern
  serverPath : ∀ path, config.serverPath = some path → path.bytes ≠ [] ∧ 0 ∉ path.bytes
  initializationTimeout : 0 < config.initializationTimeout.nanos ∧
    config.initializationTimeout ≤ .ofSecs 300
  requestTimeout : 0 < config.requestTimeout.nanos
  shutdownTimeout : 0 < config.shutdownTimeout.nanos
  debugPort : 0 < config.debugPort

/-- The text denotes the port: without the blank characters around it, it is a numeral of it. -/
structure DenotesPort (value : String) (port : UInt16) : Prop where
  numeral : Text.Numeral (Text.trimChars value.toList) port.toNat
  isPort : 0 < port

variable {config : Config}

namespace Config

theorem visible_iff {text : String} : Visible text ↔ Text.isBlankText text = false := by
  simp [Visible, Text.isBlankText]

theorem identifierError?_eq_none_iff :
    config.identifierError? = none ↔ ∀ field ∈ config.identifiers, Visible field.2 := by
  simp [identifierError?, List.find?_eq_none, visible_iff]

theorem globError?_eq_none_iff :
    config.globError? = none ↔ ∃ pattern, Glob.parse config.fileEventGlob = .ok pattern := by
  unfold globError?
  cases Glob.parse config.fileEventGlob <;> simp

theorem serverPathError?_eq_none_iff :
    config.serverPathError? = none ↔
      ∀ path, config.serverPath = some path → path.bytes ≠ [] ∧ 0 ∉ path.bytes := by
  unfold serverPathError?
  cases config.serverPath with
  | none => simp
  | some path =>
    by_cases hEmpty : path.bytes = [] <;> by_cases hNull : 0 ∈ path.bytes <;>
      simp [hEmpty, hNull]

theorem timeoutError?_eq_none_iff :
    config.timeoutError? = none ↔
      (∀ entry ∈ config.timeouts, 0 < entry.2.nanos) ∧
        config.initializationTimeout ≤ maxInitializationTimeout := by
  have hLong : config.initializationTimeout ≤ maxInitializationTimeout ↔
      ¬ maxInitializationTimeout < config.initializationTimeout := Nat.not_lt.symm
  have hZero : (∀ entry ∈ config.timeouts, 0 < entry.2.nanos) ↔
      config.timeouts.find? (fun entry => entry.2.nanos = 0) = none := by
    simp [List.find?_eq_none, Nat.pos_iff_ne_zero]
  rw [hLong, hZero, timeoutError?]
  cases config.timeouts.find? fun entry => entry.2.nanos = 0 with
  | none => simp
  | some entry => simp

theorem portError?_eq_none_iff : config.portError? = none ↔ 0 < config.debugPort := by
  simp [portError?, UInt16.lt_iff_toNat_lt, ← UInt16.toNat_inj, Nat.pos_iff_ne_zero]

/-- Nothing is wrong with a configuration exactly if it is valid. -/
theorem error?_eq_none_iff : config.error? = none ↔ config.Valid := by
  rw [error?, Option.or_eq_none_iff, Option.or_eq_none_iff, Option.or_eq_none_iff,
    Option.or_eq_none_iff, identifierError?_eq_none_iff, globError?_eq_none_iff,
    serverPathError?_eq_none_iff, timeoutError?_eq_none_iff, portError?_eq_none_iff]
  simp only [identifiers, timeouts, List.forall_mem_cons, List.not_mem_nil, false_implies,
    implies_true, and_true]
  constructor
  · rintro ⟨⟨hLanguage, hClient, hSection, hChannel, hSubdir, hExecutable⟩, hGlob, hPath,
      ⟨⟨hInitialization, hRequest, hShutdown⟩, hLong⟩, hPort⟩
    exact ⟨hLanguage, hClient, hSection, hChannel, hSubdir, hExecutable, hGlob, hPath,
      ⟨hInitialization, hLong⟩, hRequest, hShutdown, hPort⟩
  · intro h
    exact ⟨⟨h.languageId, h.clientName, h.settingsSection, h.outputChannelName, h.subdir,
      h.executable⟩, h.fileEventGlob, h.serverPath, ⟨⟨h.initializationTimeout.1, h.requestTimeout,
      h.shutdownTimeout⟩, h.initializationTimeout.2⟩, h.debugPort⟩

theorem standard_valid : standard.Valid := error?_eq_none_iff.mp (by decide +kernel)

/-- Behind a glob that can be read, only the set of globs can be refused. -/
theorem clientOptions_eq_ok_iff {pattern : Glob.Pattern}
    (hGlob : Glob.parse config.fileEventGlob = .ok pattern) :
    (∃ options, config.clientOptions = .ok options) ↔ Glob.tooDeep? [pattern] = none := by
  have hRead : Lsp.FileEventFilter.readGlobs [config.fileEventGlob] = .ok [pattern] := by
    simp [Lsp.FileEventFilter.readGlobs, hGlob, Except.map]
  unfold clientOptions Lsp.ClientOptions.forLanguage
  cases hDeep : Glob.tooDeep? [pattern] with
  | none =>
    have hFilter : Lsp.FileEventFilter.ofGlobs [config.fileEventGlob] = .ok ⟨[pattern]⟩ := by
      simp [Lsp.FileEventFilter.ofGlobs, hRead, hDeep]
    rw [hFilter]
    exact iff_of_true ⟨_, rfl⟩ rfl
  | some spot =>
    have hFilter : Lsp.FileEventFilter.ofGlobs [config.fileEventGlob] =
        .error (.tooDeep [config.fileEventGlob] spot) := by
      simp [Lsp.FileEventFilter.ofGlobs, hRead, hDeep]
    rw [hFilter]
    refine iff_of_false ?_ (by simp)
    rintro ⟨options, h⟩
    cases h

end Config

namespace ConfigBuilder

variable {b : ConfigBuilder} {value : String} {port : UInt16} {environment : String → Option String}
  {steps : List ConfigStep}

theorem build_eq_ok_iff : b.build = .ok config ↔ config = b.effective ∧ config.Valid := by
  rw [build]
  cases hError : b.effective.error? with
  | none =>
    rw [Config.error?_eq_none_iff] at hError
    constructor
    · rintro h
      obtain rfl := Except.ok.inj h
      exact ⟨rfl, hError⟩
    · rintro ⟨rfl, -⟩
      rfl
  | some e =>
    refine iff_of_false (by simp) ?_
    rintro ⟨rfl, hValid⟩
    rw [Config.error?_eq_none_iff.mpr hValid] at hError
    cases hError

theorem parsePort_eq_ok_iff : parsePort value = .ok port ↔ DenotesPort value port := by
  have hBelow : port.toNat ≤ 65535 := Nat.le_of_lt_succ port.toNat_lt
  have hPositive : 0 < port ↔ 0 < port.toNat := UInt16.lt_iff_toNat_lt
  have hDenotes : DenotesPort value port ↔
      Text.boundedNat? 65535 (Text.trimChars value.toList) = some port.toNat ∧ 0 < port := by
    rw [Text.boundedNat?_eq_some_iff]
    exact ⟨fun h => ⟨⟨h.numeral, hBelow⟩, h.isPort⟩, fun h => ⟨h.1.1, h.2⟩⟩
  rw [hDenotes, hPositive, parsePort]
  cases hRead : Text.boundedNat? 65535 (Text.trimChars value.toList) with
  | none => simp
  | some n =>
    have hSmall : n ≤ 65535 := (Text.boundedNat?_eq_some_iff.mp hRead).2
    cases n with
    | zero => simp; omega
    | succ n =>
      simp only [Except.ok.injEq, Option.some.injEq, ← UInt16.toNat_inj, Nat.toUInt16_eq,
        UInt16.toNat_ofNat']
      omega

theorem parsePort_eq_error_iff :
    (∃ e, parsePort value = .error e) ↔ ¬ ∃ port, DenotesPort value port := by
  simp only [← parsePort_eq_ok_iff]
  cases parsePort value <;> simp

/-- A lookup fails exactly at a text that denotes no port. -/
theorem applyLookup_eq_error_iff :
    (∃ e, b.applyLookup environment = .error e) ↔
      ∃ value, environment portVariable = some value ∧ ¬ ∃ port, DenotesPort value port := by
  simp only [← parsePort_eq_error_iff]
  rcases applyLookup_cases b environment with ⟨value, e, hValue, hPort, hFails⟩ | ⟨hPorts, hTakes⟩
  · exact iff_of_true ⟨e, hFails⟩ ⟨value, hValue, e, hPort⟩
  · refine iff_of_false (by simp [hTakes]) ?_
    rintro ⟨value, hValue, e, hError⟩
    obtain ⟨port, hPort⟩ := hPorts value hValue
    rw [hPort] at hError
    cases hError

/-- An empty server path is as good as none. -/
theorem applyLookup_of_empty_path (h : environment serverPathVariable = some "") :
    b.applyLookup environment =
      b.applyLookup fun name => if name = serverPathVariable then none else environment name := by
  have hOther : portVariable ≠ serverPathVariable := by decide
  simp only [applyLookup, h, if_true, hOther, if_false]
  rfl

/-- What comes of a builder that was made in some steps. -/
structure BuildsFrom (steps : List ConfigStep) (b : ConfigBuilder) : Prop where
  /-- What is built has for each field the value that was set last, or the default, and it is built
  exactly if it is valid. -/
  build : ∀ config, b.build = .ok config ↔
    config = .filled (lastValue? (steps.flatMap ConfigStep.settings)) ∧ config.Valid
  /-- It has the options of a client unless its glob, which can be read, is refused in a set. -/
  options : ∀ config, b.build = .ok config →
    ((∃ options, config.clientOptions = .ok options) ↔
      ∀ pattern, Glob.parse config.fileEventGlob = .ok pattern → Glob.tooDeep? [pattern] = none)
  /-- The port that a lookup sets is the one that its text denotes. -/
  port : ∀ value port, parsePort value = .ok port ↔ DenotesPort value port
  /-- A lookup fails exactly at a text that denotes none. -/
  lookup : ∀ environment, (∃ e, b.applyLookup environment = .error e) ↔
    ∃ value, environment portVariable = some value ∧ ¬ ∃ port, DenotesPort value port
  /-- An empty server path sets nothing. -/
  emptyPath : ∀ environment, environment serverPathVariable = some "" →
    b.applyLookup environment =
      b.applyLookup fun name => if name = serverPathVariable then none else environment name

/-- Setters and lookups in any order, of which none has failed, make a builder that builds the last
value of each field, or its default, if that is valid, and nothing otherwise. -/
theorem configurations_built_from_steps (h : empty.takeAll steps = .ok b) : BuildsFrom steps b where
  build config := by rw [build_eq_ok_iff, effective_of_takeAll h]
  options config hBuild := by
    obtain ⟨-, hValid⟩ := build_eq_ok_iff.mp hBuild
    obtain ⟨pattern, hGlob⟩ := hValid.fileEventGlob
    rw [Config.clientOptions_eq_ok_iff hGlob]
    constructor
    · intro hSet other hOther
      obtain rfl := Except.ok.inj (hGlob.symm.trans hOther)
      exact hSet
    · exact fun hSets => hSets pattern hGlob
  port value port := parsePort_eq_ok_iff
  lookup environment := applyLookup_eq_error_iff
  emptyPath environment := applyLookup_of_empty_path

/-- An environment with a port and with no path to a server. -/
def portOnly : String → Option String :=
  Keyed.find? [(portVariable, "\t+020002 "), (serverPathVariable, "")]

/-- The language is set twice, and the port that was set first is none. -/
def overridingSteps : List ConfigStep :=
  [.set (.debugPort 0), .set (.languageId " "), .set (.serverPath (.ofString "/opt/server")),
    .lookup portOnly, .set (.languageId "kotlin")]

def overridden : Config :=
  .filled (lastValue? (overridingSteps.flatMap ConfigStep.settings))

theorem overridden_shown :
    (overridden.languageId, overridden.settingsSection, overridden.debugPort,
        overridden.serverPath) = ("kotlin", "kotlin", 20002, some (.ofString "/opt/server")) ∧
      overridden.error? = none ∧
      (Glob.parse overridden.fileEventGlob).toOption.all
        (fun pattern => (Glob.tooDeep? [pattern]).isNone) = true := by
  decide +kernel

theorem overridingSteps_shown :
    (empty.takeAll overridingSteps).toOption.isSome = true ∧
      (parsePort "65536").toOption.isNone = true := by
  decide +kernel

theorem overridingSteps_built :
    ∃ b, empty.takeAll overridingSteps = .ok b ∧ b.build = .ok overridden ∧
      (overridden.languageId, overridden.settingsSection, overridden.debugPort,
        overridden.serverPath) = ("kotlin", "kotlin", 20002, some (.ofString "/opt/server")) ∧
      (∃ options, overridden.clientOptions = .ok options) ∧
      ∃ e, b.applyLookup (fun _ => some "65536") = .error e := by
  obtain ⟨hFields, hError, hGlobs⟩ := overridden_shown
  obtain ⟨hTaken, hPort⟩ := overridingSteps_shown
  cases hSteps : empty.takeAll overridingSteps with
  | error e =>
    rw [hSteps] at hTaken
    cases hTaken
  | ok b =>
    have hBuilds := configurations_built_from_steps hSteps
    have hBuild := (hBuilds.build overridden).mpr ⟨rfl, Config.error?_eq_none_iff.mp hError⟩
    refine ⟨b, rfl, hBuild, hFields, (hBuilds.options _ hBuild).mpr fun pattern hGlob => ?_, ?_⟩
    · rw [hGlob] at hGlobs
      exact Option.isNone_iff_eq_none.mp hGlobs
    · refine (hBuilds.lookup _).mpr ⟨"65536", rfl, ?_⟩
      rintro ⟨port, hDenotes⟩
      rw [(hBuilds.port _ _).mpr hDenotes] at hPort
      cases hPort

end ConfigBuilder
end EditorBridge
