import EditorBridge.Debug.Startup
import EditorBridge.Extension
import EditorBridge.Json.Printer
import EditorBridge.LogConfig
import EditorBridge.Text.Digits
/-!
The command line. Options come with a value each, which follows as an argument of its own or behind
an equals sign; they override the environment, and the environment overrides what holds otherwise.
The report of an invocation tells what a bridge set up in this way would do.
-/
namespace EditorBridge

/-- The values of the options that were given. -/
structure Invocation where
  extensionDir : Option String
  workspaceRoot : Option String
  serverPath : Option String
  debugPort : Option UInt16
  launch : Option String
  logLevel : Option String
  logFile : Option String
deriving DecidableEq, Repr

/-- Why an invocation is refused. -/
inductive InvocationError where
  | unknown (argument : String)
  | missingValue (option : String)
  | invalidPort (value : String)
deriving DecidableEq, Repr

def InvocationError.message : InvocationError → String
  | .unknown argument => "unexpected argument '" ++ argument ++ "'"
  | .missingValue option => "a value is required for '" ++ option ++ "'"
  | .invalidPort value => "'" ++ value ++ "' is no port"

namespace Invocation

def empty : Invocation := ⟨none, none, none, none, none, none, none⟩

/-- All options; each takes a value. -/
def optionNames : List String :=
  ["--extension-dir", "--workspace-root", "--server-path", "--debug-port", "--launch",
    "--log-level", "--log-file"]

/-- Sets the value of an option. Only a port can be refused. -/
def set (i : Invocation) (option value : String) : Except InvocationError Invocation :=
  match option with
  | "--extension-dir" => .ok { i with extensionDir := some value }
  | "--workspace-root" => .ok { i with workspaceRoot := some value }
  | "--server-path" => .ok { i with serverPath := some value }
  | "--launch" => .ok { i with launch := some value }
  | "--log-level" => .ok { i with logLevel := some value }
  | "--log-file" => .ok { i with logFile := some value }
  | "--debug-port" =>
    match Text.boundedNat? 65535 value.toList with
    | some port => .ok { i with debugPort := some port.toUInt16 }
    | none => .error (.invalidPort value)
  | _ => .error (.unknown option)

/-- Parts an argument at its first equals sign. -/
def partArgument (argument : String) : String × Option String :=
  let name := argument.toList.takeWhile (· != '=')
  match argument.toList.drop name.length with
  | _ :: value => (String.ofList name, some (String.ofList value))
  | [] => (argument, none)

/-- Reads arguments from left to right; the last value of an option counts. -/
def read (i : Invocation) : List String → Except InvocationError Invocation
  | [] => .ok i
  | argument :: rest =>
    match partArgument argument with
    | (option, some value) => do read (← i.set option value) rest
    | (option, none) =>
      if optionNames.contains option then
        match rest with
        | value :: rest => do read (← i.set option value) rest
        | [] => .error (.missingValue option)
      else .error (.unknown argument)

def ofArguments (arguments : List String) : Except InvocationError Invocation :=
  empty.read arguments

/-- The configuration: the environment first, and then the options. -/
def config (i : Invocation) (lookup : String → Option String) : Except ConfigError Config := do
  let b ← ConfigBuilder.empty.applyLookup lookup
  let b := match i.serverPath with
    | some path => b.set (.serverPath (Path.ofString path))
    | none => b
  let b := match i.debugPort with
    | some port => b.set (.debugPort port)
    | none => b
  b.build

/-- The least configuration that launches a program. -/
def launchConfiguration (debugType program : String) : Debug.LaunchConfiguration :=
  .ofMembers [("type", .string debugType), ("name", .string ("Launch " ++ program)),
    ("request", .string "launch"), ("program", .string program)]

/-- The configuration as an adapter would get it, or why it would not come to that. -/
def launchReport (registry : Debug.Registry) (config : Config) (root : Path) (program : String) :
    String :=
  let folder := Debug.WorkspaceFolder.ofPath root
  match registry.plan (some folder) (launchConfiguration config.languageId program) none with
  | .ok plan => plan.session.configuration.toJson.text
  | .error e => e.message

/-- What a bridge would do that is installed and works in the given directories. -/
def report (i : Invocation) (lookup : String → Option String) (installed current : Path)
    (processId : Nat) : Except ExtensionError (List String) := do
  let config ← (i.config lookup).mapError .config
  let root := (i.workspaceRoot.map Path.ofString).getD current
  let dir := (i.extensionDir.map Path.ofString).getD installed
  let log := (LogConfig.ofLookup lookup processId).withOverrides i.logLevel
    (i.logFile.map Path.ofString)
  let a ← activate ⟨dir, some root, []⟩ .empty config (.nat processId)
  let lines := [
    "server: " ++ a.location.display,
    "workspace: " ++ root.display,
    "debug adapter: " ++ config.debugEndpoint.display,
    "log level: " ++ log.level]
  let file := log.file.toList.map fun p => "log file: " ++ p.display
  let launch := i.launch.toList.map fun program =>
    "launch: " ++ launchReport a.registry config root program
  return lines ++ file ++ launch

end Invocation
end EditorBridge
