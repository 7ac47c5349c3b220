import EditorBridge.Debug.Registry
import EditorBridge.Drill.Record
import EditorBridge.Drill.Step
/-!
Drills of the registry of debuggers, with providers and factories that a step can name.
-/
namespace EditorBridge.Drill

def registryErrorKind : Debug.RegistryError → String
  | .missingType => "MissingType"
  | .cancelled => "Cancelled"
  | .noDescriptorFactory _ => "NoDescriptorFactory"

def launchOf (j : Json) : Decoded Debug.LaunchConfiguration :=
  Debug.LaunchConfiguration.ofMembers <$> (Document.ofJson j).readMap

def folderOf (j : Json) : Option Debug.WorkspaceFolder :=
  (optPath j).map Debug.WorkspaceFolder.ofPath

/-- A registry and the rights to take registrations back. -/
structure RegistryRun where
  registry : Debug.Registry
  handles : List (Option Debug.Disposable)

/-- A provider that leaves a mark, with the folder and the token as it saw them. -/
def tagProvider (tag : String) : Debug.ConfigurationProvider := fun folder c token =>
  let entry : Json := .array [str tag, orNull (folder.map fun f => str f.name)]
  let trace := match c.get? "trace" with
    | some (.array xs) => xs
    | _ => []
  let result := c.insert "trace" (.array (trace ++ [entry]))
  if tag = "cancel" then
    match token with
    | none => (none, none)
    | some _ => (some result, some ⟨true⟩)
  else (some result, token)

def providerOf (what : String) : Debug.ConfigurationProvider :=
  if what = "java" then Debug.javaProvider
  else if what = "abort" then fun _ _ token => (none, token)
  else tagProvider what

def executableOf (j : Json) : Debug.AdapterExecutable :=
  ⟨pathOf (j.get "command"), strings (j.get "args"), optPath (j.get "cwd"), envOf (j.get "env")⟩

def factoryOf (what : Json) : Debug.DescriptorFactory :=
  match what with
  | .string "host" => fun _ e =>
    .executable (e.getD (.ofCommand (Path.ofString "none")))
  | .string _ => Debug.serverFactory .standard
  | .object _ => fun _ _ => .executable (executableOf what)
  | _ => Debug.serverFactory (.loopback (natOf what))

def executableJson (e : Debug.AdapterExecutable) : Json :=
  obj [("command", str e.command.display), ("args", .array (e.args.map str)),
    ("cwd", orNull (e.cwd.map fun p => str p.display)),
    ("env", obj (e.env.map fun (k, v) => (k, str v)))]

def descriptorJson : Debug.AdapterDescriptor → Json
  | .server e => obj [("server", str e.display)]
  | .executable e => obj [("executable", executableJson e)]

def registryError (e : Debug.RegistryError) : Json := errorAnswer (registryErrorKind e) e.message

def tokenOf (j : Json) : Option Debug.CancellationToken := j.bool?.map Debug.CancellationToken.mk

def registryStep? (s : RegistryRun) (step : List Json) : Option (RegistryRun × Json) :=
  let debugType := strOf (arg step 1)
  match stepName step with
  | "provider" =>
    let (r, d) := s.registry.registerProvider debugType (providerOf (strOf (arg step 2)))
    some (⟨r, s.handles ++ [some d]⟩, .nat s.handles.length)
  | "factory" =>
    let (r, d) := s.registry.registerFactory debugType (factoryOf (arg step 2))
    some (⟨r, s.handles ++ [some d]⟩, .nat s.handles.length)
  | "dispose" =>
    let n := natOf (arg step 1)
    match s.handles[n]? with
    | some (some d) => some (⟨s.registry.dispose d, s.handles.set n none⟩, str d.text)
    | _ => some (s, .null)
  | "has" => some (s, .array [.bool (s.registry.hasProvider debugType),
      .bool (s.registry.hasDescriptorFactory debugType)])
  | "resolve" =>
    match launchOf (arg step 1) with
    | .error e => some (s, faultAnswer e)
    | .ok c =>
      match (s.registry.resolve (folderOf (arg step 2)) c (tokenOf (arg step 3))).1 with
      | .ok c => some (s, c.toJson)
      | .error e => some (s, registryError e)
  | "descriptor" =>
    match launchOf (arg step 1) with
    | .error e => some (s, faultAnswer e)
    | .ok c =>
      let executable := if (arg step 2).isNull then none else some (executableOf (arg step 2))
      match s.registry.descriptorFor (.ofConfiguration c) executable with
      | .ok d => some (s, descriptorJson d)
      | .error e => some (s, registryError e)
  | _ => none

def registry (i : Json) : Json :=
  let act (s : RegistryRun) (step : List Json) := (registryStep? s step).getD (s, .null)
  .array (runSteps act ⟨.empty, []⟩ (stepsOf i)).2

end EditorBridge.Drill
