import EditorBridge.Debug.Configuration
import EditorBridge.Debug.Endpoint
/-!
The registry of configuration providers and adapter descriptors. Both are kept by type of debugger
in the order of registration. Providers are run in that order, each on the result of the one before;
of the factories the latest one answers. Every registration can be taken back on its own.
-/
namespace EditorBridge.Debug

/-- Tells whoever holds it whether the start was called off. -/
structure CancellationToken where
  cancelled : Bool
deriving DecidableEq, Repr

/-- Resolves a configuration, or answers none to call the start off. It may cancel the token. -/
abbrev ConfigurationProvider :=
  Option WorkspaceFolder → LaunchConfiguration → Option CancellationToken →
    Option LaunchConfiguration × Option CancellationToken

/-- The provider for Java resolves every configuration and calls nothing off. -/
def javaProvider : ConfigurationProvider := fun _ config token => (some config.resolveJava, token)

/-- An adapter that is run as a child process. -/
structure AdapterExecutable where
  command : Path
  args : List String
  cwd : Option Path
  env : Keyed String
deriving DecidableEq, Repr

/-- A command without arguments, in the surroundings of the bridge itself. -/
def AdapterExecutable.ofCommand (command : Path) : AdapterExecutable := ⟨command, [], none, []⟩

/-- How an adapter is reached: where it listens, or what is run. -/
inductive AdapterDescriptor where
  | server (endpoint : Endpoint)
  | executable (executable : AdapterExecutable)
deriving DecidableEq, Repr

/-- A debug session and what it is for. -/
structure SessionInfo where
  name : String
  debugType : String
  configuration : LaunchConfiguration
deriving Repr

/-- What a configuration leaves open is empty. -/
def SessionInfo.ofConfiguration (c : LaunchConfiguration) : SessionInfo :=
  ⟨c.name?.getD "", c.debugType?.getD "", c⟩

/-- Answers how the adapter of a session is reached, given the executable that the caller offers. -/
abbrev DescriptorFactory := SessionInfo → Option AdapterExecutable → AdapterDescriptor

/-- A factory for an adapter that listens already. -/
def serverFactory (endpoint : Endpoint) : DescriptorFactory := fun _ _ => .server endpoint

/-- The live registrations of one kind: for each type with at least one, the number and item of each
in the order of registration. -/
abbrev Registrations (α : Type) := Keyed (List (Nat × α))

namespace Registrations

variable {α : Type}

/-- Appends a registration to those of its type. -/
def add (rs : Registrations α) (debugType : String) (id : Nat) (item : α) : Registrations α :=
  rs.insert debugType ((rs.find? debugType).getD [] ++ [(id, item)])

/-- Removes a registration, and the type with its last one. -/
def remove (rs : Registrations α) (debugType : String) (id : Nat) : Registrations α :=
  match rs.find? debugType with
  | none => rs
  | some entries =>
    match entries.filter fun entry => entry.1 ≠ id with
    | [] => rs.erase debugType
    | left => rs.insert debugType left

/-- What is registered for a type, in the order of registration. -/
def items (rs : Registrations α) (debugType : String) : List α :=
  ((rs.find? debugType).getD []).map (·.2)

end Registrations

/-- The two kinds of registrations. -/
inductive RegistrationKind where
  | provider
  | factory
deriving DecidableEq, Repr

/-- The right to take one registration back. -/
structure Disposable where
  kind : RegistrationKind
  debugType : String
  id : Nat
deriving DecidableEq, Repr

def Disposable.text (_ : Disposable) : String := "Disposable \x7b disposed: false \x7d"

/-- Why no session is started. -/
inductive RegistryError where
  | missingType
  | cancelled
  | noDescriptorFactory (debugType : String)
deriving DecidableEq, Repr

def RegistryError.message : RegistryError → String
  | .missingType => "Launch configuration has no 'type'"
  | .cancelled => "Debug session start was cancelled"
  | .noDescriptorFactory debugType =>
    "No debug adapter descriptor factory registered for '" ++ debugType ++ "'"

/-- The registrations of both kinds, and the number of the next one. -/
structure Registry where
  providers : Registrations ConfigurationProvider
  factories : Registrations DescriptorFactory
  nextId : Nat

namespace Registry

/-- Nothing is registered, and the first number is 1. -/
def empty : Registry := ⟨[], [], 1⟩

/-- Registers a provider behind those of its type. -/
def registerProvider (r : Registry) (debugType : String) (provider : ConfigurationProvider) :
    Registry × Disposable :=
  ({ r with providers := r.providers.add debugType r.nextId provider, nextId := r.nextId + 1 },
    ⟨.provider, debugType, r.nextId⟩)

/-- Registers a factory, which answers for its type until a later one is registered. -/
def registerFactory (r : Registry) (debugType : String) (factory : DescriptorFactory) :
    Registry × Disposable :=
  ({ r with factories := r.factories.add debugType r.nextId factory, nextId := r.nextId + 1 },
    ⟨.factory, debugType, r.nextId⟩)

/-- Takes one registration back. A second time there is nothing left to take. -/
def dispose (r : Registry) (d : Disposable) : Registry :=
  match d.kind with
  | .provider => { r with providers := r.providers.remove d.debugType d.id }
  | .factory => { r with factories := r.factories.remove d.debugType d.id }

/-- Is a provider registered for a type? -/
def hasProvider (r : Registry) (debugType : String) : Bool := !(r.providers.items debugType).isEmpty

/-- Is a factory registered for a type? -/
def hasDescriptorFactory (r : Registry) (debugType : String) : Bool :=
  !(r.factories.items debugType).isEmpty

/-- Runs providers in turn; the first that answers none calls the start off. -/
def runProviders (folder : Option WorkspaceFolder) :
    List ConfigurationProvider → LaunchConfiguration → Option CancellationToken →
      Except RegistryError LaunchConfiguration × Option CancellationToken
  | [], config, token =>
    if token.any (·.cancelled) then (.error .cancelled, token) else (.ok config, token)
  | provider :: rest, config, token =>
    match provider folder config token with
    | (some config, token) => runProviders folder rest config token
    | (none, token) => (.error .cancelled, token)

/-- Resolves a configuration with the providers of the type that it has at first. Answers also what
became of the token. -/
def resolve (r : Registry) (folder : Option WorkspaceFolder) (config : LaunchConfiguration)
    (token : Option CancellationToken) :
    Except RegistryError LaunchConfiguration × Option CancellationToken :=
  match config.debugType? with
  | none => (.error .missingType, token)
  | some debugType => runProviders folder (r.providers.items debugType) config token

/-- How the adapter of a session is reached: as the latest factory of its type says. -/
def descriptorFor (r : Registry) (session : SessionInfo) (executable : Option AdapterExecutable) :
    Except RegistryError AdapterDescriptor :=
  match (r.factories.items session.debugType).getLast? with
  | none => .error (.noDescriptorFactory session.debugType)
  | some factory => .ok (factory session executable)

end Registry
end EditorBridge.Debug
