import EditorBridge.Config
/-!
The fields of a configuration and the values that settings give them. Whatever the order of the
steps, a builder holds for each field the value that was set last, and what it makes of its fields
depends on nothing else.
-/
namespace EditorBridge

inductive ConfigField where
  | languageId
  | clientName
  | settingsSection
  | fileEventGlob
  | outputChannelName
  | serverBundle
  | serverPath
  | debugHost
  | debugPort
  | initializationTimeout
  | requestTimeout
  | shutdownTimeout

def ConfigField.Value : ConfigField → Type
  | .languageId | .clientName | .settingsSection | .fileEventGlob | .outputChannelName => String
  | .serverBundle => ServerBundle
  | .serverPath => Path
  | .debugHost => Net.Address
  | .debugPort => UInt16
  | .initializationTimeout | .requestTimeout | .shutdownTimeout => Duration

/-- The value that a setting gives to a field, if it is a setting of this field. -/
def ConfigSetting.value? : (f : ConfigField) → ConfigSetting → Option f.Value
  | .languageId, .languageId v => some v
  | .clientName, .clientName v => some v
  | .settingsSection, .settingsSection v => some v
  | .fileEventGlob, .fileEventGlob v => some v
  | .outputChannelName, .outputChannelName v => some v
  | .serverBundle, .serverBundle v => some v
  | .serverPath, .serverPath v => some v
  | .debugHost, .debugHost v => some v
  | .debugPort, .debugPort v => some v
  | .initializationTimeout, .initializationTimeout v => some v
  | .requestTimeout, .requestTimeout v => some v
  | .shutdownTimeout, .shutdownTimeout v => some v
  | _, _ => none

/-- The value that the last setting of a field gives to it. -/
def lastValue? (settings : List ConfigSetting) (f : ConfigField) : Option f.Value :=
  (settings.filterMap (ConfigSetting.value? f)).getLast?

/-- A configuration with these values and the default of each field without one. The settings
section follows the language. -/
def Config.filled (value? : (f : ConfigField) → Option f.Value) : Config :=
  let languageId := (value? .languageId).getD Config.standard.languageId
  { languageId
    clientName := (value? .clientName).getD Config.standard.clientName
    settingsSection := (value? .settingsSection).getD languageId
    fileEventGlob := (value? .fileEventGlob).getD Config.standard.fileEventGlob
    outputChannelName := (value? .outputChannelName).getD Config.standard.outputChannelName
    serverBundle := (value? .serverBundle).getD Config.standard.serverBundle
    serverPath := value? .serverPath
    debugHost := (value? .debugHost).getD Config.standard.debugHost
    debugPort := (value? .debugPort).getD Config.standard.debugPort
    initializationTimeout :=
      (value? .initializationTimeout).getD Config.standard.initializationTimeout
    requestTimeout := (value? .requestTimeout).getD Config.standard.requestTimeout
    shutdownTimeout := (value? .shutdownTimeout).getD Config.standard.shutdownTimeout }

/-- A step on a builder: it sets a value, or takes over what the environment gives. -/
inductive ConfigStep where
  | set (setting : ConfigSetting)
  | lookup (environment : String → Option String)

/-- The settings that a step makes if it succeeds. -/
def ConfigStep.settings : ConfigStep → List ConfigSetting
  | .set setting => [setting]
  | .lookup environment =>
    let port? := (environment ConfigBuilder.portVariable).bind fun value =>
      (ConfigBuilder.parsePort value).toOption
    let path? := (environment ConfigBuilder.serverPathVariable).filter (· ≠ "")
    port?.toList.map .debugPort ++ path?.toList.map fun value => .serverPath (Path.ofString value)

namespace ConfigBuilder

def get (b : ConfigBuilder) : (f : ConfigField) → Option f.Value
  | .languageId => b.languageId
  | .clientName => b.clientName
  | .settingsSection => b.settingsSection
  | .fileEventGlob => b.fileEventGlob
  | .outputChannelName => b.outputChannelName
  | .serverBundle => b.serverBundle
  | .serverPath => b.serverPath
  | .debugHost => b.debugHost
  | .debugPort => b.debugPort
  | .initializationTimeout => b.initializationTimeout
  | .requestTimeout => b.requestTimeout
  | .shutdownTimeout => b.shutdownTimeout

def take (b : ConfigBuilder) : ConfigStep → Except ConfigError ConfigBuilder
  | .set setting => .ok (b.set setting)
  | .lookup environment => b.applyLookup environment

def takeAll (b : ConfigBuilder) (steps : List ConfigStep) : Except ConfigError ConfigBuilder :=
  steps.foldlM take b

variable {b c : ConfigBuilder} {settings : List ConfigSetting} {step : ConfigStep}
  {steps : List ConfigStep} {environment : String → Option String}

theorem get_empty (f : ConfigField) : empty.get f = none := by cases f <;> rfl

theorem get_set (b : ConfigBuilder) (setting : ConfigSetting) (f : ConfigField) :
    (b.set setting).get f = (setting.value? f).or (b.get f) := by
  cases f <;> cases setting <;> rfl

theorem get_foldl_set (b : ConfigBuilder) (settings : List ConfigSetting) (f : ConfigField) :
    (settings.foldl set b).get f = (lastValue? settings f).or (b.get f) := by
  induction settings generalizing b with
  | nil => rfl
  | cons setting settings ih =>
    rw [List.foldl_cons, ih, get_set, lastValue?, lastValue?, ← Option.or_assoc]
    congr 1
    cases hValue : setting.value? f with
    | none => simp [hValue]
    | some v => simp [hValue, List.getLast?_cons]

theorem effective_eq_filled (b : ConfigBuilder) : b.effective = .filled b.get := rfl

/-- A lookup fails at a text that is no port, and otherwise sets what the environment gives. -/
theorem applyLookup_cases (b : ConfigBuilder) (environment : String → Option String) :
    (∃ value e, environment portVariable = some value ∧ parsePort value = .error e ∧
      b.applyLookup environment = .error e) ∨
    (∀ value, environment portVariable = some value → ∃ port, parsePort value = .ok port) ∧
      b.applyLookup environment = .ok ((ConfigStep.lookup environment).settings.foldl set b) := by
  simp only [applyLookup, ConfigStep.settings]
  cases hValue : environment portVariable with
  | none =>
    refine .inr ⟨by simp, ?_⟩
    cases (environment serverPathVariable).filter (· ≠ "") <;> rfl
  | some value =>
    simp only [Option.bind_some]
    cases hPort : parsePort value with
    | error e => exact .inl ⟨value, e, rfl, hPort, rfl⟩
    | ok port =>
      refine .inr ⟨fun _ h => ⟨port, Option.some.inj h ▸ hPort⟩, ?_⟩
      cases (environment serverPathVariable).filter (· ≠ "") <;> rfl

theorem take_eq_ok (h : b.take step = .ok c) : c = step.settings.foldl set b := by
  cases step with
  | set setting => exact (Except.ok.inj h).symm
  | lookup environment =>
    rcases applyLookup_cases b environment with ⟨value, e, -, -, hFails⟩ | ⟨-, hTakes⟩
    · rw [take, hFails] at h
      cases h
    · exact Except.ok.inj (h.symm.trans hTakes)

theorem takeAll_eq_ok (h : b.takeAll steps = .ok c) :
    c = (steps.flatMap ConfigStep.settings).foldl set b := by
  induction steps generalizing b with
  | nil => exact (Except.ok.inj h).symm
  | cons step steps ih =>
    rw [takeAll, List.foldlM_cons] at h
    cases hStep : b.take step with
    | error e => rw [hStep] at h; cases h
    | ok d =>
      rw [hStep] at h
      rw [ih h, take_eq_ok hStep, List.flatMap_cons, List.foldl_append]

/-- What steps on a new builder lead to: the last value of each field, or its default. -/
theorem effective_of_takeAll (h : empty.takeAll steps = .ok b) :
    b.effective = .filled (lastValue? (steps.flatMap ConfigStep.settings)) := by
  have hGet : b.get = lastValue? (steps.flatMap ConfigStep.settings) := by
    funext f
    rw [takeAll_eq_ok h, get_foldl_set, get_empty, Option.or_none]
  rw [effective_eq_filled, hGet]

end ConfigBuilder
end EditorBridge
