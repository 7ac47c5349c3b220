import EditorBridge.Debug.Endpoint
import EditorBridge.Duration
import EditorBridge.Locator
import EditorBridge.Lsp.Options
import EditorBridge.Text.Blank
import EditorBridge.Text.Digits
/-!
The configuration of the bridge. A `ConfigBuilder` collects values in any order, the last one for
each field counts, and `build` fills in the defaults and checks the whole; the settings section
follows the language unless it is set.
-/
namespace EditorBridge

inductive PortFault where
  | outOfRange
  | notANumber
deriving DecidableEq, Repr

/-- Why a server path is refused. -/
inductive PathFault where
  | empty
  | nullCharacter
deriving DecidableEq, Repr

/-- Why a timeout is refused; a zero one is named. -/
inductive TimeoutFault where
  | zero (name : String)
  | tooLong
deriving DecidableEq, Repr

/-- What is wrong with a configuration. -/
inductive ConfigError where
  | emptyField (field : String)
  | invalidPort (value : String) (fault : PortFault)
  | invalidGlob (fault : Lsp.GlobFault)
  | invalidTimeout (timeout : Duration) (fault : TimeoutFault)
  | invalidPath (path : String) (fault : PathFault)
deriving DecidableEq, Repr

def PortFault.reason : PortFault → String
  | .outOfRange => "Port must be between 1 and 65535"
  | .notANumber => "Not a valid port number"

def PathFault.reason : PathFault → String
  | .empty => "Server path cannot be empty"
  | .nullCharacter => "Server path contains null character"

def TimeoutFault.reason : TimeoutFault → String
  | .zero name => name ++ " timeout must be greater than zero"
  | .tooLong => "Initialization timeout too long (max 5 minutes)"

def ConfigError.message : ConfigError → String
  | .emptyField field => "Configuration field '" ++ field ++ "' cannot be empty"
  | .invalidPort value fault => "Invalid debug port '" ++ value ++ "': " ++ fault.reason
  | .invalidGlob fault => "Invalid file-watch glob '" ++ fault.pattern ++ "': " ++ fault.reason
  | .invalidTimeout timeout fault => "Invalid timeout: " ++ timeout.text ++ " - " ++ fault.reason
  | .invalidPath path fault => "Invalid path: " ++ path ++ " - " ++ fault.reason

/-- A complete configuration. Without a server path the bundled server is used. -/
structure Config where
  languageId : String
  clientName : String
  settingsSection : String
  fileEventGlob : String
  outputChannelName : String
  serverBundle : ServerBundle
  serverPath : Option Path
  debugHost : Net.Address
  debugPort : UInt16
  initializationTimeout : Duration
  requestTimeout : Duration
  shutdownTimeout : Duration
deriving DecidableEq, Repr

namespace Config

/-- What holds when nothing is set. -/
def standard : Config where
  languageId := "java"
  clientName := "NetBeans Java"
  settingsSection := "java"
  fileEventGlob := "**/*.java"
  outputChannelName := "Java"
  serverBundle := .standard
  serverPath := none
  debugHost := Debug.Endpoint.standard.host
  debugPort := Debug.Endpoint.standard.port
  initializationTimeout := .ofSecs 30
  requestTimeout := .ofSecs 10
  shutdownTimeout := .ofSecs 5

/-- Longer than this nobody waits for a server to be ready. -/
def maxInitializationTimeout : Duration := .ofSecs 300

/-- Where the debug adapter listens. -/
def debugEndpoint (config : Config) : Debug.Endpoint := ⟨config.debugHost, config.debugPort⟩

/-- The responsibilities of the language client. Only a malformed glob stands in the way. -/
def clientOptions (config : Config) : Except Lsp.GlobFault Lsp.ClientOptions := do
  let options ← Lsp.ClientOptions.forLanguage config.languageId config.fileEventGlob
    config.outputChannelName
  return { options with settingsSection := config.settingsSection }

/-- The fields that need a character that is not blank, in the order in which they are checked. -/
def identifiers (config : Config) : List (String × String) :=
  [("language_id", config.languageId), ("client_name", config.clientName),
    ("settings_section", config.settingsSection),
    ("output_channel_name", config.outputChannelName),
    ("server_bundle.subdir", config.serverBundle.subdir),
    ("server_bundle.executable", config.serverBundle.executable)]

/-- The timeouts with their names, in the order in which they are checked. -/
def timeouts (config : Config) : List (String × Duration) :=
  [("Initialization", config.initializationTimeout), ("Request", config.requestTimeout),
    ("Shutdown", config.shutdownTimeout)]

/-- The first of the fields that is blank. -/
def identifierError? (config : Config) : Option ConfigError :=
  (config.identifiers.find? fun field => Text.isBlankText field.2).map fun field =>
    .emptyField field.1

/-- The glob is checked by itself, before it is made part of a filter. -/
def globError? (config : Config) : Option ConfigError :=
  match Glob.parse config.fileEventGlob with
  | .ok _ => none
  | .error fault => some (.invalidGlob (.malformed config.fileEventGlob fault))

/-- What is wrong with the server path. Whether the file exists is not asked. -/
def serverPathError? (config : Config) : Option ConfigError :=
  config.serverPath.bind fun path =>
    if path.bytes = [] then some (.invalidPath "" .empty)
    else if path.bytes.contains 0 then some (.invalidPath path.display .nullCharacter)
    else none

/-- The first timeout that is zero, or an initialization timeout that is too long. -/
def timeoutError? (config : Config) : Option ConfigError :=
  match config.timeouts.find? fun entry => entry.2.nanos = 0 with
  | some (name, timeout) => some (.invalidTimeout timeout (.zero name))
  | none =>
    if maxInitializationTimeout < config.initializationTimeout then
      some (.invalidTimeout config.initializationTimeout .tooLong)
    else none

def portError? (config : Config) : Option ConfigError :=
  if config.debugPort = 0 then some (.invalidPort "0" .outOfRange) else none

/-- The first fault: of the identifiers, the glob, the server path, the timeouts and the port. -/
def error? (config : Config) : Option ConfigError :=
  config.identifierError?.or <| config.globError?.or <| config.serverPathError?.or <|
    config.timeoutError?.or config.portError?

end Config

/-- The values that were set, for each field at most one. -/
structure ConfigBuilder where
  languageId : Option String
  clientName : Option String
  settingsSection : Option String
  fileEventGlob : Option String
  outputChannelName : Option String
  serverBundle : Option ServerBundle
  serverPath : Option Path
  debugHost : Option Net.Address
  debugPort : Option UInt16
  initializationTimeout : Option Duration
  requestTimeout : Option Duration
  shutdownTimeout : Option Duration
deriving DecidableEq, Repr

inductive ConfigSetting where
  | languageId (value : String)
  | clientName (value : String)
  | settingsSection (value : String)
  | fileEventGlob (value : String)
  | outputChannelName (value : String)
  | serverBundle (value : ServerBundle)
  | serverPath (value : Path)
  | debugHost (value : Net.Address)
  | debugPort (value : UInt16)
  | initializationTimeout (value : Duration)
  | requestTimeout (value : Duration)
  | shutdownTimeout (value : Duration)
deriving DecidableEq, Repr

namespace ConfigBuilder

/-- A builder in which nothing is set. -/
def empty : ConfigBuilder :=
  ⟨none, none, none, none, none, none, none, none, none, none, none, none⟩

/-- The last value for a field counts. -/
def set (b : ConfigBuilder) : ConfigSetting → ConfigBuilder
  | .languageId v => { b with languageId := some v }
  | .clientName v => { b with clientName := some v }
  | .settingsSection v => { b with settingsSection := some v }
  | .fileEventGlob v => { b with fileEventGlob := some v }
  | .outputChannelName v => { b with outputChannelName := some v }
  | .serverBundle v => { b with serverBundle := some v }
  | .serverPath v => { b with serverPath := some v }
  | .debugHost v => { b with debugHost := some v }
  | .debugPort v => { b with debugPort := some v }
  | .initializationTimeout v => { b with initializationTimeout := some v }
  | .requestTimeout v => { b with requestTimeout := some v }
  | .shutdownTimeout v => { b with shutdownTimeout := some v }

/-- The variable that gives the port of the debug adapter. -/
def portVariable : String := "NBJAVA_DEBUG_PORT"

/-- The variable that gives the path of the server. -/
def serverPathVariable : String := "NBJAVA_SERVER_PATH"

/-- The port that a text denotes; blank characters around it do not count. -/
def parsePort (value : String) : Except ConfigError UInt16 :=
  match Text.boundedNat? 65535 (Text.trimChars value.toList) with
  | some 0 => .error (.invalidPort value .outOfRange)
  | some n => .ok n.toUInt16
  | none => .error (.invalidPort value .notANumber)

/-- Sets what the environment gives. An empty server path sets nothing. -/
def applyLookup (b : ConfigBuilder) (lookup : String → Option String) :
    Except ConfigError ConfigBuilder :=
  let port : Except ConfigError ConfigBuilder := match lookup portVariable with
    | some value => (parsePort value).map fun port => b.set (.debugPort port)
    | none => .ok b
  port.map fun b =>
    match (lookup serverPathVariable).filter (· ≠ "") with
    | some value => b.set (.serverPath (Path.ofString value))
    | none => b

/-- The configuration with the defaults filled in, not yet checked. -/
def effective (b : ConfigBuilder) : Config :=
  let languageId := b.languageId.getD Config.standard.languageId
  { languageId
    clientName := b.clientName.getD Config.standard.clientName
    settingsSection := b.settingsSection.getD languageId
    fileEventGlob := b.fileEventGlob.getD Config.standard.fileEventGlob
    outputChannelName := b.outputChannelName.getD Config.standard.outputChannelName
    serverBundle := b.serverBundle.getD Config.standard.serverBundle
    serverPath := b.serverPath
    debugHost := b.debugHost.getD Config.standard.debugHost
    debugPort := b.debugPort.getD Config.standard.debugPort
    initializationTimeout := b.initializationTimeout.getD Config.standard.initializationTimeout
    requestTimeout := b.requestTimeout.getD Config.standard.requestTimeout
    shutdownTimeout := b.shutdownTimeout.getD Config.standard.shutdownTimeout }

/-- Fills in the defaults and checks the whole. -/
def build (b : ConfigBuilder) : Except ConfigError Config :=
  match b.effective.error? with
  | some error => .error error
  | none => .ok b.effective

end ConfigBuilder
end EditorBridge
