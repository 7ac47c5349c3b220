import EditorBridge.Config
import EditorBridge.Drill.Record
import EditorBridge.Drill.Step
/-!
Drills of the configuration: setters in any order, and what is built in the end.
-/
namespace EditorBridge.Drill

def configErrorKind : ConfigError → String
  | .emptyField _ => "EmptyField"
  | .invalidPort .. => "InvalidPort"
  | .invalidGlob _ => "InvalidGlob"
  | .invalidTimeout .. => "InvalidTimeout"
  | .invalidPath .. => "InvalidPath"

def configSetting? (step : List Json) : Option ConfigSetting :=
  let text := strOf (arg step 1)
  let time := durationOf (arg step 1) (arg step 2)
  match stepName step with
  | "language_id" => some (.languageId text)
  | "client_name" => some (.clientName text)
  | "settings_section" => some (.settingsSection text)
  | "file_event_glob" => some (.fileEventGlob text)
  | "output_channel_name" => some (.outputChannelName text)
  | "server_bundle" => some (.serverBundle ⟨text, strOf (arg step 2)⟩)
  | "server_path" => some (.serverPath (pathOf (arg step 1)))
  | "debug_host" => (Net.Address.parse? text).map .debugHost
  | "debug_port" => some (.debugPort (natOf (arg step 1)))
  | "initialization_timeout" => some (.initializationTimeout time)
  | "request_timeout" => some (.requestTimeout time)
  | "shutdown_timeout" => some (.shutdownTimeout time)
  | _ => none

def configOf (steps : List (List Json)) : Except ConfigError Config := do
  let b ← steps.foldlM (fun (b : ConfigBuilder) step => do
    if stepName step = "env" then
      let vars := envOf (arg step 1)
      b.applyLookup vars.find?
    else
      match configSetting? step with
      | some s => pure (b.set s)
      | none => pure b) ConfigBuilder.empty
  b.build

def configError (e : ConfigError) : Json := errorAnswer (configErrorKind e) e.message

def durationJson (d : Duration) : Json := obj [("secs", .nat d.secs), ("nanos", .nat d.subsecNanos)]

def clientOptionsJson (o : Lsp.ClientOptions) : Json :=
  obj [("selector", selectorJson o.selector), ("section", str o.settingsSection),
    ("patterns", .array (o.fileEvents.patterns.map fun p => str p.text)),
    ("channel", str o.outputChannelName), ("reveal", str o.reveal.name)]

def configJson (c : Config) (options : Lsp.ClientOptions) : Json :=
  obj [("language_id", str c.languageId), ("client_name", str c.clientName),
    ("settings_section", str c.settingsSection), ("file_event_glob", str c.fileEventGlob),
    ("output_channel_name", str c.outputChannelName),
    ("server_bundle", .array [str c.serverBundle.subdir, str c.serverBundle.executable]),
    ("server_path", orNull (c.serverPath.map fun p => str p.display)),
    ("debug_endpoint", str c.debugEndpoint.display),
    ("initialization_timeout", durationJson c.initializationTimeout),
    ("request_timeout", durationJson c.requestTimeout),
    ("shutdown_timeout", durationJson c.shutdownTimeout),
    ("client_options", clientOptionsJson options), ("is_default", .bool (c == Config.standard))]

def configAnswer (i : Json) : Json :=
  match configOf (stepsOf i) with
  | .error e => configError e
  | .ok c =>
    match c.clientOptions with
    | .error f => globAnswer f
    | .ok options => configJson c options

def configSteps (i : Json) : List (List Json) := (listOf (i.get "config")).map listOf

end EditorBridge.Drill
