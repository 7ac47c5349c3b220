import EditorBridge.Config
import EditorBridge.Debug.Registry
import EditorBridge.Locator
import EditorBridge.Session.Manager
/-!
The extension as the host sees it. Activation finds the server, starts the language session without
waiting for it, and registers how Java programs are debugged. It either does all of that or nothing.
What it registered is taken back with the subscriptions of its context.
-/
namespace EditorBridge

inductive ExtensionError where
  | config (error : ConfigError)
  | session (error : Session.Error)
  | lsp (fault : Lsp.GlobFault)

def ExtensionError.message : ExtensionError → String
  | .config e => "Configuration error: " ++ e.message
  | .session e => "Language session error: " ++ e.message
  | .lsp fault =>
    "LSP error: Invalid file-watch glob '" ++ fault.pattern ++ "': " ++ fault.reason

/-- What the host gives to an extension. -/
structure ExtensionContext where
  extensionPath : Path
  workspaceRoot : Option Path
  /-- What is to be taken back when the extension goes. -/
  subscriptions : List Debug.Disposable

namespace ExtensionContext

/-- Takes all subscriptions back, the latest first. -/
def dispose (ctx : ExtensionContext) (registry : Debug.Registry) :
    ExtensionContext × Debug.Registry :=
  ({ ctx with subscriptions := [] },
    ctx.subscriptions.reverse.foldl Debug.Registry.dispose registry)

end ExtensionContext

/-- What a configuration says about the language session. -/
def Config.sessionProfile (config : Config) (processId : Json) (options : Lsp.ClientOptions) :
    Session.Profile where
  clientId := config.languageId
  clientName := config.clientName
  processId
  options
  handshakeLimit := config.initializationTimeout
  requestLimit := config.requestTimeout

/-- A path of the configuration goes before the bundled server. -/
def Config.serverLocation (config : Config) (extensionPath : Path) : ServerLocation :=
  match config.serverPath with
  | some path => .explicit path
  | none => .resolve extensionPath config.serverBundle

/-- What an activation leaves behind. -/
structure Activation where
  context : ExtensionContext
  registry : Debug.Registry
  location : ServerLocation
  profile : Session.Profile
  session : Session.State

/-- Activates the extension. The options of the client and the start of the session are what can
fail, and both come before anything is registered. The start is only accepted here: the launch
itself happens later. -/
def activate (ctx : ExtensionContext) (registry : Debug.Registry) (config : Config)
    (processId : Json) : Except ExtensionError Activation :=
  let location := config.serverLocation ctx.extensionPath
  match config.clientOptions with
  | .error fault => .error (.lsp fault)
  | .ok options =>
    let profile := config.sessionProfile processId options
    match (Session.State.create profile).start location.path ctx.workspaceRoot with
    | .error e => .error (.session e)
    | .ok session =>
      let (registry, provider) := registry.registerProvider config.languageId Debug.javaProvider
      let (registry, factory) :=
        registry.registerFactory config.languageId (Debug.serverFactory config.debugEndpoint)
      .ok {
        context := { ctx with subscriptions := ctx.subscriptions ++ [provider, factory] }
        registry, location, profile, session }

end EditorBridge
