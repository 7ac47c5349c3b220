import EditorBridge.Extension
import EditorBridge.Proofs.Debug.Sparing
/-!
Activation, step by step and as a whole. Everything that can fail is done before anything is
touched, so activation leaves its context, the registry and the server alone or does all that it
has to do. Its context takes back what it registered, and nothing that others have registered.
-/
namespace EditorBridge

open Debug (Registry RegistryHistory RegistryAction Listing SessionInfo AdapterExecutable)
open Debug.RegistryHistory (start)

/-- What activation can touch: the context and the registry that it is given, and the sessions
that have been started. -/
structure Workbench where
  context : ExtensionContext
  registry : Registry
  sessions : List Session.State

/-- A computation that can stop on the way. What it has touched until then stays touched. -/
abbrev WorkbenchM := ExceptT ExtensionError (StateM Workbench)

namespace Workbench

def clientOptions (config : Config) : WorkbenchM Lsp.ClientOptions :=
  match config.clientOptions with
  | .error fault => throw (.lsp fault)
  | .ok options => return options

/-- Starts a session, whose server is then being launched. -/
def startSession (profile : Session.Profile) (path : Path) (root : Option Path) :
    WorkbenchM Session.State := do
  match (Session.State.create profile).start path root with
  | .error e => throw (.session e)
  | .ok session =>
    modify fun bench => { bench with sessions := bench.sessions ++ [session] }
    return session

/-- Registers something, and leaves it to the context to take it back. -/
def subscribe (register : Registry → Registry × Debug.Disposable) : WorkbenchM Unit :=
  modify fun bench =>
    let (registry, disposable) := register bench.registry
    let subscriptions := bench.context.subscriptions ++ [disposable]
    { bench with registry, context := { bench.context with subscriptions } }

def activate (config : Config) (processId : Json) :
    WorkbenchM (ServerLocation × Session.Profile × Session.State) := do
  let ctx := (← get).context
  let location := config.serverLocation ctx.extensionPath
  let profile := config.sessionProfile processId (← clientOptions config)
  let session ← startSession profile location.path ctx.workspaceRoot
  subscribe (·.registerProvider config.languageId Debug.javaProvider)
  subscribe (·.registerFactory config.languageId (Debug.serverFactory config.debugEndpoint))
  return (location, profile, session)

end Workbench

/-- A registry after a context has been disposed. -/
def ExtensionContext.disposeIn (ctx : ExtensionContext) (h : RegistryHistory) : RegistryHistory :=
  ⟨(ctx.dispose h.registry).2, h.handed⟩

/-- What activation registers. -/
def Config.registrations (config : Config) : List RegistryAction :=
  [.register ⟨config.languageId, .provider Debug.javaProvider⟩,
    .register ⟨config.languageId, .factory (Debug.serverFactory config.debugEndpoint)⟩]

/-- The numbers of the next two registrations behind a history. -/
def nextTwo (before : List RegistryAction) : List Nat :=
  [(Listing.empty.after before).made, (Listing.empty.after before).made + 1]

/-- What has come of activation, and what will come of it. The context held the subscriptions of
certain registrations before. -/
structure Activated (before : List RegistryAction) (ctx : ExtensionContext) (held : List Nat)
    (config : Config) (a : Activation) : Prop where
  registry : a.registry = (start.after (before ++ config.registrations)).registry
  /-- Two subscriptions have been added, of what was registered. -/
  subscribed : ∃ provider factory,
    a.context = { ctx with subscriptions := ctx.subscriptions ++ [provider, factory] } ∧
    (start.after (before ++ config.registrations)).Holds (nextTwo before) [provider, factory]
  /-- The server is being launched. -/
  starting : a.session.status = .starting ∧
    a.session.attempts = [.launch ⟨a.location.path, [], ctx.workspaceRoot⟩]
  /-- A session of the language is debugged at the endpoint that was configured, until there is a
  later factory or this one is disposed. -/
  descriptor : ∀ between (session : SessionInfo) executable,
    session.debugType = config.languageId →
    (∀ factory, .register ⟨config.languageId, .factory factory⟩ ∉ between) →
    .dispose ((Listing.empty.after before).made + 1) ∉ between →
    (start.after (before ++ config.registrations ++ between)).registry.descriptorFor session
      executable = .ok (.server config.debugEndpoint)
  /-- The context takes back what it holds, whatever was registered and disposed meanwhile. -/
  emptied : ∀ between,
    (a.context.dispose (start.after (before ++ config.registrations ++ between)).registry).1 =
      { ctx with subscriptions := [] }
  removes : ∀ between,
    (a.context.disposeIn (start.after (before ++ config.registrations ++ between))).Refines
      ⟨(Listing.empty.after (before ++ config.registrations ++ between)).made,
        (Listing.empty.after (before ++ config.registrations ++ between)).live.filter fun entry =>
          entry.1 ∉ held ++ nextTwo before⟩
  /-- From then on the registry answers as if that had never been registered. -/
  restores : ∀ between later,
    ((a.context.disposeIn (start.after (before ++ config.registrations ++ between))).after
        later).registry.Alike
      (start.after (Debug.spared (held ++ nextTwo before) 0
        (before ++ config.registrations ++ between ++ later))).registry

variable {ctx : ExtensionContext} {config : Config} {processId : Json} {options : Lsp.ClientOptions}
  {before : List RegistryAction} {held : List Nat}

/-- Activation step by step stops with everything as it was, or does everything. -/
theorem Workbench.activate_run (config : Config) (processId : Json) (bench : Workbench) :
    (Workbench.activate config processId).run.run bench =
      match EditorBridge.activate bench.context bench.registry config processId with
      | .error e => (.error e, bench)
      | .ok a => (.ok (a.location, a.profile, a.session),
          ⟨a.context, a.registry, bench.sessions ++ [a.session]⟩) := by
  unfold Workbench.activate EditorBridge.activate Workbench.clientOptions
  cases config.clientOptions with
  | error fault => rfl
  | ok options =>
    have hOneByOne (provider factory : Debug.Disposable) :
        bench.context.subscriptions ++ [provider, factory] =
          bench.context.subscriptions ++ [provider] ++ [factory] :=
      List.append_cons ..
    simp only [hOneByOne]
    rfl

/-- What is returned where the options of the client can be made. -/
def activation (ctx : ExtensionContext) (registry : Registry) (config : Config) (processId : Json)
    (options : Lsp.ClientOptions) : Activation :=
  let (first, provider) := registry.registerProvider config.languageId Debug.javaProvider
  let (last, factory) :=
    first.registerFactory config.languageId (Debug.serverFactory config.debugEndpoint)
  let location := config.serverLocation ctx.extensionPath
  let profile := config.sessionProfile processId options
  let server : Lsp.ServerOptions := ⟨location.path, [], ctx.workspaceRoot⟩
  { context := { ctx with subscriptions := ctx.subscriptions ++ [provider, factory] }
    registry := last, location, profile
    session := { Session.State.create profile with
      status := .starting, server := some server, attempts := [.launch server]
      startTask := some 0 } }

/-- The options of the client are all that can fail. -/
theorem activate_eq (ctx : ExtensionContext) (registry : Registry) (config : Config)
    (processId : Json) :
    activate ctx registry config processId = match config.clientOptions with
      | .error fault => .error (.lsp fault)
      | .ok options => .ok (activation ctx registry config processId options) := by
  unfold activate
  cases config.clientOptions with
  | error fault => rfl
  | ok options => rfl

/-- A registration on the list is the last factory of its type. -/
structure LatestFactory (l : Listing) (n : Nat) (debugType : String)
    (factory : Debug.DescriptorFactory) : Prop where
  split : ∃ first rest, l.live = first ++ (n, ⟨debugType, .factory factory⟩) :: rest ∧
    ∀ entry ∈ rest, entry.2.factoryFor? debugType = none

namespace LatestFactory

variable {l : Listing} {n : Nat} {debugType : String} {factory : Debug.DescriptorFactory}
  {action : RegistryAction} {actions : List RegistryAction}

theorem step (h : LatestFactory l n debugType factory)
    (hNone : ∀ later, .register ⟨debugType, .factory later⟩ ≠ action)
    (hKept : .dispose n ≠ action) : LatestFactory (l.step action) n debugType factory := by
  obtain ⟨first, rest, hLive, hRest⟩ := h.split
  cases action with
  | register r =>
    refine ⟨first, rest ++ [(l.made, r)], by simp [Listing.step, hLive], fun entry hMem => ?_⟩
    rcases List.mem_append.mp hMem with hOld | hNew
    · exact hRest entry hOld
    · obtain rfl := List.mem_singleton.mp hNew
      -- What is registered now is a provider, or a factory of another type.
      refine Option.eq_none_iff_forall_ne_some.mpr fun later hLater => hNone later ?_
      exact congrArg _ (Debug.Registration.factoryFor?_eq_some_iff.mp hLater).symm
  | dispose m =>
    have hOther : n ≠ m := fun hSame => hKept (by rw [hSame])
    refine ⟨first.filter fun entry => entry.1 ≠ m, rest.filter fun entry => entry.1 ≠ m, ?_,
      fun entry hMem => hRest entry (List.mem_filter.mp hMem).1⟩
    simp [Listing.step, hLive, hOther]

theorem after (h : LatestFactory l n debugType factory)
    (hNone : ∀ later, .register ⟨debugType, .factory later⟩ ∉ actions)
    (hKept : .dispose n ∉ actions) : LatestFactory (l.after actions) n debugType factory := by
  induction actions generalizing l with
  | nil => exact h
  | cons action rest ih =>
    have hFirst := h.step (fun later hSame => hNone later (hSame ▸ List.mem_cons_self))
      fun hSame => hKept (hSame ▸ List.mem_cons_self)
    exact ih hFirst (fun later hMem => hNone later (List.mem_cons_of_mem _ hMem))
      fun hMem => hKept (List.mem_cons_of_mem _ hMem)

theorem descriptorFor (h : LatestFactory l n debugType factory) {session : SessionInfo}
    (hType : session.debugType = debugType) (executable : Option AdapterExecutable) :
    l.descriptorFor session executable = .ok (factory session executable) := by
  obtain ⟨first, rest, hLive, hRest⟩ := h.split
  have hNone : rest.reverse.findSome? (·.2.factoryFor? debugType) = none :=
    List.findSome?_eq_none_iff.mpr fun entry hMem => hRest entry (List.mem_reverse.mp hMem)
  have hOwn : Debug.Registration.factoryFor? ⟨debugType, .factory factory⟩ debugType =
      some factory := if_pos rfl
  have hFound : l.live.reverse.findSome? (·.2.factoryFor? session.debugType) = some factory := by
    simp [hType, hLive, List.findSome?_append, hNone, hOwn]
  rw [Listing.descriptorFor, hFound]

end LatestFactory

theorem activation_registry (before : List RegistryAction) :
    (activation ctx (start.after before).registry config processId options).registry =
      (start.after (before ++ config.registrations)).registry := by
  rw [RegistryHistory.after_append]
  rfl

/-- What activation registers gets the next two numbers. -/
theorem holds_registrations (config : Config) (before : List RegistryAction) :
    (start.after (before ++ config.registrations)).Holds (nextTwo before)
      [⟨.provider, config.languageId, (start.after before).registry.nextId⟩,
        ⟨.factory, config.languageId, (start.after before).registry.nextId + 1⟩] := by
  have hHanded := (RegistryHistory.refines_start.after before).handed
  rw [RegistryHistory.after_append, RegistryHistory.Holds, nextTwo, ← hHanded]
  generalize start.after before = h
  have hAll : (h.after config.registrations).handed = h.handed ++
      [⟨.provider, config.languageId, h.registry.nextId⟩,
        ⟨.factory, config.languageId, h.registry.nextId + 1⟩] := (List.append_cons ..).symm
  simp [hAll]

theorem latestFactory_registrations (config : Config) (before : List RegistryAction) :
    LatestFactory (Listing.empty.after (before ++ config.registrations))
      ((Listing.empty.after before).made + 1) config.languageId
      (Debug.serverFactory config.debugEndpoint) := by
  rw [Listing.after_append]
  generalize Listing.empty.after before = l
  exact ⟨l.live ++ [(l.made, ⟨config.languageId, .provider Debug.javaProvider⟩)], [], rfl, by simp⟩

/-- The subscriptions of the context that comes of activation are of what it held and of what
activation has registered. -/
theorem holds_activation (hHeld : (start.after before).Holds held ctx.subscriptions)
    (config : Config) (processId : Json) (options : Lsp.ClientOptions) (between : List RegistryAction) :
    (start.after (before ++ config.registrations ++ between)).Holds (held ++ nextTwo before)
      (activation ctx (start.after before).registry config processId
        options).context.subscriptions := by
  have hBefore : (start.after before).handed <+:
      (start.after (before ++ config.registrations ++ between)).handed := by
    rw [List.append_assoc, RegistryHistory.after_append]
    exact RegistryHistory.handed_grows ..
  have hOwn : (start.after (before ++ config.registrations)).handed <+:
      (start.after (before ++ config.registrations ++ between)).handed := by
    rw [RegistryHistory.after_append _ _ between]
    exact RegistryHistory.handed_grows ..
  exact (hHeld.extend hBefore).append ((holds_registrations config before).extend hOwn)

/-- Disposing a context disposes the registrations whose subscriptions it holds. -/
theorem disposeIn_eq {h : RegistryHistory} {numbers : List Nat}
    (hHolds : h.Holds numbers ctx.subscriptions) :
    ctx.disposeIn h = h.after (numbers.reverse.map .dispose) :=
  (RegistryHistory.after_disposals hHolds.reverse).symm

theorem activation_activated (hHeld : (start.after before).Holds held ctx.subscriptions) :
    Activated before ctx held config
      (activation ctx (start.after before).registry config processId options) where
  registry := activation_registry before
  subscribed := ⟨_, _, rfl, holds_registrations config before⟩
  starting := ⟨rfl, rfl⟩
  descriptor between session executable hType hNone hKept := by
    have hLatest := (latestFactory_registrations config before).after hNone hKept
    rw [← Listing.after_append] at hLatest
    rw [(RegistryHistory.refines_start.after _).answers.descriptorFor]
    exact hLatest.descriptorFor hType executable
  emptied between := rfl
  removes between := by
    rw [disposeIn_eq (holds_activation hHeld config processId options between),
      ← RegistryHistory.after_append]
    exact RegistryHistory.refines_disposals ..
  restores between later := by
    have hHolds := holds_activation hHeld config processId options between
    have hMade := (RegistryHistory.refines_start.after
      (before ++ config.registrations ++ between)).handed
    rw [disposeIn_eq hHolds, ← RegistryHistory.after_append start]
    exact RegistryHistory.alike_spared (fun n hMem => hMade ▸ hHolds.lt_length hMem) later

/-- Whatever a registry has gone through, and whatever its context holds, activation fails exactly
if the options of the client cannot be made, and then nothing has been touched. Otherwise it does
everything, and what it does is undone with its context. -/
theorem activation_all_or_nothing (hHeld : (start.after before).Holds held ctx.subscriptions)
    (config : Config) (processId : Json) :
    (∀ sessions, (Workbench.activate config processId).run.run
        ⟨ctx, (start.after before).registry, sessions⟩ =
      match activate ctx (start.after before).registry config processId with
      | .error e => (.error e, ⟨ctx, (start.after before).registry, sessions⟩)
      | .ok a => (.ok (a.location, a.profile, a.session),
          ⟨a.context, a.registry, sessions ++ [a.session]⟩)) ∧
    (∀ e, activate ctx (start.after before).registry config processId = .error e ↔
      ∃ fault, config.clientOptions = .error fault ∧ e = .lsp fault) ∧
    ∀ a, activate ctx (start.after before).registry config processId = .ok a →
      Activated before ctx held config a := by
  refine ⟨fun sessions => Workbench.activate_run .., fun e => ?_, fun a hDone => ?_⟩
  · rw [activate_eq]
    cases config.clientOptions <;> simp [eq_comm]
  · rw [activate_eq] at hDone
    cases hOptions : config.clientOptions with
    | error fault => simp [hOptions] at hDone
    | ok options =>
      simp only [hOptions, Except.ok.injEq] at hDone
      exact hDone ▸ activation_activated hHeld

/-- A context that holds the subscription of an older factory. -/
def olderContext : ExtensionContext :=
  ⟨.ofString "/ext", some (.ofString "/a"), [⟨.factory, "java", 3⟩]⟩

/-- What other extensions do while the extension is active. -/
def foreignActions : List RegistryAction :=
  [.register ⟨"java", .provider Debug.refusingProvider⟩, .dispose 0,
    .register ⟨"node", .factory (Debug.serverFactory .standard)⟩, .dispose 6]

theorem standard_clientOptions : Config.standard.clientOptions.toOption.isSome = true := by
  decide +kernel

/-- The same history without what the context will have taken back. -/
def remainingActions : List RegistryAction :=
  [.register ⟨"java", .provider Debug.javaProvider⟩,
    .register ⟨"node", .provider Debug.refusingProvider⟩, .dispose 1,
    .register ⟨"java", .provider Debug.refusingProvider⟩, .dispose 0,
    .register ⟨"node", .factory (Debug.serverFactory .standard)⟩, .dispose 3]

theorem activation_taken_back :
    (start.after Debug.firstRegistrations).Holds [2] olderContext.subscriptions ∧
    ∃ a, activate olderContext (start.after Debug.firstRegistrations).registry .standard .null =
        .ok a ∧
      (∀ session executable, session.debugType = "java" →
        (start.after (Debug.firstRegistrations ++ Config.standard.registrations ++
          foreignActions)).registry.descriptorFor session executable = .ok (.server .standard)) ∧
      (a.context.disposeIn (start.after (Debug.firstRegistrations ++
        Config.standard.registrations ++ foreignActions))).registry.Alike
          (start.after remainingActions).registry := by
  have hHeld : (start.after Debug.firstRegistrations).Holds [2] olderContext.subscriptions := rfl
  obtain ⟨-, hFails, hDone⟩ := activation_all_or_nothing hHeld .standard .null
  refine ⟨hHeld, ?_⟩
  generalize activate olderContext (start.after Debug.firstRegistrations).registry .standard .null =
    result at hFails hDone
  cases result with
  | error e =>
    obtain ⟨fault, hFault, -⟩ := (hFails e).mp rfl
    have hOptions := standard_clientOptions
    rw [hFault] at hOptions
    cases hOptions
  | ok a =>
    have hActivated := hDone a rfl
    have hMade : (Listing.empty.after Debug.firstRegistrations).made = 3 := rfl
    refine ⟨a, rfl, fun session executable hType => ?_, ?_⟩
    · exact hActivated.descriptor foreignActions session executable hType
        (by simp [foreignActions, Config.standard]) (by simp [foreignActions, hMade])
    · have hWithout : Debug.spared ([2] ++ nextTwo Debug.firstRegistrations) 0
          (Debug.firstRegistrations ++ Config.standard.registrations ++ foreignActions ++ []) =
            remainingActions := rfl
      exact hWithout ▸ hActivated.restores foreignActions []

end EditorBridge
