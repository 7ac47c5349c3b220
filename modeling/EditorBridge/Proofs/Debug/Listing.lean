import EditorBridge.Debug.Registry
import EditorBridge.Proofs.Keyed
/-!
The registry of providers and factories is a plain list of what is registered. Registering puts an
entry at the end of the list, disposing takes one out, and each answer of the registry is read off
the list. What a registry holds is the function of its list, so two histories that leave the same
list leave the same answers.
-/
namespace EditorBridge.Debug

inductive Registrable where
  | provider (provider : ConfigurationProvider)
  | factory (factory : DescriptorFactory)

structure Registration where
  debugType : String
  item : Registrable

namespace Registration

def providerFor? (r : Registration) (debugType : String) : Option ConfigurationProvider :=
  match r.item with
  | .provider provider => if r.debugType = debugType then some provider else none
  | .factory _ => none

def factoryFor? (r : Registration) (debugType : String) : Option DescriptorFactory :=
  match r.item with
  | .provider _ => none
  | .factory factory => if r.debugType = debugType then some factory else none

def kind (r : Registration) : RegistrationKind :=
  match r.item with
  | .provider _ => .provider
  | .factory _ => .factory

end Registration

/-- What was registered and not disposed, in order. Each entry has the number of registrations that
were made before it, and `made` is the number of all. -/
structure Listing where
  made : Nat
  live : List (Nat × Registration)

inductive RegistryAction where
  | register (registration : Registration)
  /-- Calls the n-th of the disposables that were handed out; nothing happens where there is none
  or it was called before. -/
  | dispose (n : Nat)

namespace Listing

def empty : Listing := ⟨0, []⟩

def step (l : Listing) : RegistryAction → Listing
  | .register registration => ⟨l.made + 1, l.live ++ [(l.made, registration)]⟩
  | .dispose n => { l with live := l.live.filter fun entry => entry.1 ≠ n }

def after (l : Listing) (actions : List RegistryAction) : Listing := actions.foldl step l

def providers (l : Listing) (debugType : String) : List ConfigurationProvider :=
  l.live.filterMap (·.2.providerFor? debugType)

/-- Asks a provider, unless one before it answered none. -/
def ask (folder : Option WorkspaceFolder)
    (state : Option LaunchConfiguration × Option CancellationToken)
    (provider : ConfigurationProvider) : Option LaunchConfiguration × Option CancellationToken :=
  match state with
  | (some config, token) => provider folder config token
  | (none, token) => (none, token)

def resolve (l : Listing) (folder : Option WorkspaceFolder) (config : LaunchConfiguration)
    (token : Option CancellationToken) :
    Except RegistryError LaunchConfiguration × Option CancellationToken :=
  match config.debugType? with
  | none => (.error .missingType, token)
  | some debugType =>
    match (l.providers debugType).foldl (ask folder) (some config, token) with
    | (none, token) => (.error .cancelled, token)
    | (some config, token) =>
      if token.any (·.cancelled) then (.error .cancelled, token) else (.ok config, token)

def descriptorFor (l : Listing) (session : SessionInfo) (executable : Option AdapterExecutable) :
    Except RegistryError AdapterDescriptor :=
  match l.live.reverse.findSome? (·.2.factoryFor? session.debugType) with
  | none => .error (.noDescriptorFactory session.debugType)
  | some factory => .ok (factory session executable)

end Listing

/-- A registry, and the disposables that it has handed out. -/
structure RegistryHistory where
  registry : Registry
  handed : List Disposable

namespace RegistryHistory

def start : RegistryHistory := ⟨.empty, []⟩

def register (h : RegistryHistory) (registration : Registration) : Registry × Disposable :=
  match registration.item with
  | .provider provider => h.registry.registerProvider registration.debugType provider
  | .factory factory => h.registry.registerFactory registration.debugType factory

def step (h : RegistryHistory) : RegistryAction → RegistryHistory
  | .register registration =>
    let (registry, disposable) := h.register registration
    ⟨registry, h.handed ++ [disposable]⟩
  | .dispose n =>
    match h.handed[n]? with
    | none => h
    | some disposable => { h with registry := h.registry.dispose disposable }

def after (h : RegistryHistory) (actions : List RegistryAction) : RegistryHistory :=
  actions.foldl step h

end RegistryHistory

namespace Registrations

variable {α : Type} {rs : Registrations α} {entries : String → List (Nat × α)}

/-- The map of these entries: one key for each type that has any. -/
structure Holds (rs : Registrations α) (entries : String → List (Nat × α)) : Prop where
  sorted : Keyed.Sorted rs
  found : ∀ debugType,
    rs.find? debugType = if entries debugType = [] then none else some (entries debugType)

theorem Holds.items (h : Holds rs entries) (debugType : String) :
    rs.items debugType = (entries debugType).map (·.2) := by
  rw [Registrations.items, h.found]
  split
  · rename_i hNone
    rw [hNone]
    rfl
  · rfl

/-- What is held makes the map. -/
theorem Holds.unique {other : Registrations α} (h : Holds rs entries)
    (hOther : Holds other entries) : rs = other :=
  h.sorted.ext hOther.sorted fun debugType =>
    (h.found debugType).trans (hOther.found debugType).symm

theorem Holds.add (h : Holds rs entries) {debugType : String} {id : Nat} {item : α}
    {later : String → List (Nat × α)} (hSame : later debugType = entries debugType ++ [(id, item)])
    (hOther : ∀ other, other ≠ debugType → later other = entries other) :
    Holds (rs.add debugType id item) later := by
  refine ⟨h.sorted.insert _ _, fun other => ?_⟩
  rw [Registrations.add, h.found]
  by_cases hType : other = debugType
  · subst hType
    rw [Keyed.find?_insert_self, hSame]
    by_cases hNone : entries other = [] <;> simp [hNone]
  · rw [Keyed.find?_insert_of_ne _ _ hType, h.found, hOther other hType]

theorem Holds.remove (h : Holds rs entries) {debugType : String} {id : Nat}
    {later : String → List (Nat × α)}
    (hSame : later debugType = (entries debugType).filter fun entry => entry.1 ≠ id)
    (hOther : ∀ other, other ≠ debugType → later other = entries other) :
    Holds (rs.remove debugType id) later := by
  rw [Registrations.remove, h.found]
  by_cases hNone : entries debugType = []
  · rw [if_pos hNone]
    refine ⟨h.sorted, fun other => ?_⟩
    by_cases hType : other = debugType
    · subst hType
      rw [h.found, hSame, hNone]
      rfl
    · rw [h.found, hOther other hType]
  · rw [if_neg hNone]
    simp only [← hSame]
    split
    · rename_i hLeft
      refine ⟨h.sorted.erase _, fun other => ?_⟩
      by_cases hType : other = debugType
      · subst hType
        rw [Keyed.find?_erase_self, if_pos hLeft]
      · rw [Keyed.find?_erase_of_ne _ hType, h.found, hOther other hType]
    · rename_i left hLeft
      refine ⟨h.sorted.insert _ _, fun other => ?_⟩
      by_cases hType : other = debugType
      · subst hType
        rw [Keyed.find?_insert_self, if_neg hLeft]
      · rw [Keyed.find?_insert_of_ne _ _ hType, h.found, hOther other hType]

end Registrations

section

variable {α : Type} {live : List (Nat × Registration)}

/-- The entries of one kind and type, with the numbers that the registry gives them. -/
def numbered (pick : Registration → String → Option α) (live : List (Nat × Registration))
    (debugType : String) : List (Nat × α) :=
  live.filterMap fun entry => (pick entry.2 debugType).map (entry.1 + 1, ·)

variable {pick : Registration → String → Option α} {debugType : String}

theorem numbered_items :
    (numbered pick live debugType).map (·.2) = live.filterMap fun e => pick e.2 debugType := by
  simp only [numbered, List.map_filterMap, Option.map_map, Function.comp_def, Option.map_id']

theorem numbered_filter (n : Nat) :
    numbered pick (live.filter fun entry => entry.1 ≠ n) debugType =
      (numbered pick live debugType).filter fun entry => entry.1 ≠ n + 1 := by
  induction live with
  | nil => rfl
  | cons entry rest ih =>
    by_cases hNumber : entry.1 = n <;> cases hPick : pick entry.2 debugType <;>
      simpa [numbered, hPick, hNumber] using ih

/-- An entry that is not of the kind and type is not missed among those that are. -/
theorem numbered_filter_of_none {n : Nat}
    (h : ∀ r, (n, r) ∈ live → pick r debugType = none) :
    numbered pick (live.filter fun entry => entry.1 ≠ n) debugType =
      numbered pick live debugType := by
  rw [numbered_filter, List.filter_eq_self]
  intro entry hMem
  obtain ⟨⟨number, r⟩, hLive, hPick⟩ := List.mem_filterMap.mp hMem
  obtain ⟨item, hItem, rfl⟩ := Option.map_eq_some_iff.mp hPick
  have hNumber : number ≠ n := by
    rintro rfl
    rw [h r hLive] at hItem
    cases hItem
  simpa using hNumber

theorem numbered_append (n : Nat) (r : Registration) :
    numbered pick (live ++ [(n, r)]) debugType =
      numbered pick live debugType ++ ((pick r debugType).map (n + 1, ·)).toList := by
  cases hPick : pick r debugType <;> simp [numbered, hPick]

namespace Registrations

variable {rs : Registrations α} {n : Nat} {r : Registration}

theorem Holds.register (h : Holds rs (numbered pick live)) {item : α}
    (hItem : pick r debugType = some item)
    (hOther : ∀ other, other ≠ debugType → pick r other = none) :
    Holds (rs.add debugType (n + 1) item) (numbered pick (live ++ [(n, r)])) := by
  apply h.add
  · rw [numbered_append, hItem]
    rfl
  · intro other hType
    rw [numbered_append, hOther other hType]
    exact List.append_nil _

theorem Holds.registerOther (h : Holds rs (numbered pick live))
    (hNone : ∀ debugType, pick r debugType = none) :
    Holds rs (numbered pick (live ++ [(n, r)])) := by
  refine ⟨h.sorted, fun debugType => ?_⟩
  rw [numbered_append, hNone, h.found]
  simp

theorem Holds.dispose (h : Holds rs (numbered pick live))
    (hOther : ∀ r, (n, r) ∈ live → ∀ other, other ≠ debugType → pick r other = none) :
    Holds (rs.remove debugType (n + 1))
      (numbered pick (live.filter fun entry => entry.1 ≠ n)) := by
  apply h.remove
  · exact numbered_filter n
  · exact fun other hType => numbered_filter_of_none fun r hLive => hOther r hLive other hType

theorem Holds.disposeOther (h : Holds rs (numbered pick live))
    (hNone : ∀ r, (n, r) ∈ live → ∀ debugType, pick r debugType = none) :
    Holds rs (numbered pick (live.filter fun entry => entry.1 ≠ n)) := by
  refine ⟨h.sorted, fun debugType => ?_⟩
  rw [numbered_filter_of_none fun r hLive => hNone r hLive debugType, h.found]

end Registrations

end

namespace Registration

variable {r : Registration} {debugType : String}

theorem providerFor?_eq_none (h : r.kind ≠ .provider ∨ r.debugType ≠ debugType) :
    r.providerFor? debugType = none := by
  obtain ⟨own, item⟩ := r
  cases item with
  | provider p => exact if_neg (h.resolve_left fun hKind => hKind rfl)
  | factory f => rfl

theorem factoryFor?_eq_none (h : r.kind ≠ .factory ∨ r.debugType ≠ debugType) :
    r.factoryFor? debugType = none := by
  obtain ⟨own, item⟩ := r
  cases item with
  | provider p => rfl
  | factory f => exact if_neg (h.resolve_left fun hKind => hKind rfl)

end Registration

namespace RegistryHistory

variable {h : RegistryHistory} {l : Listing}

/-- The registry holds what is on the list, and each disposable names the registration that it was
handed out for. -/
structure Refines (h : RegistryHistory) (l : Listing) : Prop where
  providers : h.registry.providers.Holds (numbered Registration.providerFor? l.live)
  factories : h.registry.factories.Holds (numbered Registration.factoryFor? l.live)
  nextId : h.registry.nextId = l.made + 1
  handed : h.handed.length = l.made
  ids : ∀ n d, h.handed[n]? = some d → d.id = n + 1
  live : ∀ n r, (n, r) ∈ l.live → h.handed[n]? = some ⟨r.kind, r.debugType, n + 1⟩

/-- A disposable names its registration by the number after that of its place. -/
theorem Refines.lt_made (hRefines : Refines h l) {n : Nat} {r : Registration}
    (hLive : (n, r) ∈ l.live) : n < l.made := by
  have hGet := hRefines.live n r hLive
  have hSome := List.getElem?_eq_some_iff.mp hGet
  exact hRefines.handed ▸ hSome.1

theorem refines_start : Refines start .empty where
  providers := ⟨Keyed.sorted_nil, fun _ => rfl⟩
  factories := ⟨Keyed.sorted_nil, fun _ => rfl⟩
  nextId := rfl
  handed := rfl
  ids n d hGet := by cases hGet
  live n r hLive := by cases hLive

theorem register_disposable (h : RegistryHistory) (r : Registration) :
    (h.register r).2 = ⟨r.kind, r.debugType, h.registry.nextId⟩ := by
  unfold RegistryHistory.register Registration.kind
  cases r.item <;> rfl

/-- Registering puts the registration at the end of the list. -/
theorem Refines.register (hRefines : Refines h l) (r : Registration) :
    Refines (h.step (.register r)) (l.step (.register r)) := by
  have hDisposable := h.register_disposable r
  rw [hRefines.nextId] at hDisposable
  -- What is known of the disposables does not depend on the kind of the registration.
  have hIds : ∀ n d, (h.handed ++ [(h.register r).2])[n]? = some d → d.id = n + 1 := by
    intro n d hGet
    rcases Nat.lt_trichotomy n h.handed.length with hOld | hNew | hBeyond
    · rw [List.getElem?_append_left hOld] at hGet
      exact hRefines.ids n d hGet
    · subst hNew
      rw [List.getElem?_concat_length, hDisposable] at hGet
      obtain rfl := Option.some.inj hGet
      rw [hRefines.handed]
    · rw [List.getElem?_eq_none (by rw [List.length_append]; exact hBeyond)] at hGet
      cases hGet
  have hLive : ∀ n s, (n, s) ∈ l.live ++ [(l.made, r)] →
      (h.handed ++ [(h.register r).2])[n]? = some ⟨s.kind, s.debugType, n + 1⟩ := by
    intro n s hMem
    rcases List.mem_append.mp hMem with hOld | hNew
    · rw [List.getElem?_append_left (hRefines.handed ▸ hRefines.lt_made hOld)]
      exact hRefines.live n s hOld
    · obtain ⟨rfl, rfl⟩ := Prod.mk.inj (List.mem_singleton.mp hNew)
      rw [← hRefines.handed, List.getElem?_concat_length, hDisposable, hRefines.handed]
  have hHanded : (h.handed ++ [(h.register r).2]).length = l.made + 1 := by
    simp [hRefines.handed]
  obtain ⟨debugType, item⟩ := r
  cases item with
  | provider provider =>
    refine ⟨?_, ?_, congrArg (· + 1) hRefines.nextId, hHanded, hIds, hLive⟩
    · show (h.registry.providers.add debugType h.registry.nextId provider).Holds _
      rw [hRefines.nextId]
      exact hRefines.providers.register (if_pos rfl) fun other hType => if_neg hType.symm
    · exact hRefines.factories.registerOther fun _ => rfl
  | factory factory =>
    refine ⟨?_, ?_, congrArg (· + 1) hRefines.nextId, hHanded, hIds, hLive⟩
    · exact hRefines.providers.registerOther fun _ => rfl
    · show (h.registry.factories.add debugType h.registry.nextId factory).Holds _
      rw [hRefines.nextId]
      exact hRefines.factories.register (if_pos rfl) fun other hType => if_neg hType.symm

/-- Disposing takes the registration out of the list. -/
theorem Refines.dispose (hRefines : Refines h l) (n : Nat) :
    Refines (h.step (.dispose n)) (l.step (.dispose n)) := by
  have hLive : ∀ m s, (m, s) ∈ l.live.filter (fun entry => entry.1 ≠ n) →
      h.handed[m]? = some ⟨s.kind, s.debugType, m + 1⟩ := fun m s hMem =>
    hRefines.live m s (List.mem_filter.mp hMem).1
  cases hGet : h.handed[n]? with
  | none =>
    have hAbsent : ∀ r, (n, r) ∉ l.live := fun r hMem => by
      rw [hRefines.live n r hMem] at hGet
      cases hGet
    have hStep : h.step (.dispose n) = h := by simp only [step, hGet]
    rw [hStep]
    exact ⟨hRefines.providers.disposeOther fun r hMem => absurd hMem (hAbsent r),
      hRefines.factories.disposeOther fun r hMem => absurd hMem (hAbsent r), hRefines.nextId,
      hRefines.handed, hRefines.ids, hLive⟩
  | some d =>
    obtain ⟨kind, debugType, id⟩ := d
    obtain rfl := hRefines.ids n _ hGet
    -- The registration, if it is still there, is the one that the disposable names.
    have hNamed : ∀ r, (n, r) ∈ l.live → r.kind = kind ∧ r.debugType = debugType := by
      intro r hMem
      have hSame := hRefines.live n r hMem
      rw [hGet] at hSame
      cases hSame
      exact ⟨rfl, rfl⟩
    have hType : ∀ r, (n, r) ∈ l.live → ∀ other, other ≠ debugType → r.debugType ≠ other := by
      intro r hMem other hOther
      rw [(hNamed r hMem).2]
      exact hOther.symm
    have hStep : h.step (.dispose n) =
        { h with registry := h.registry.dispose ⟨kind, debugType, n + 1⟩ } := by
      simp only [step, hGet]
    rw [hStep]
    cases kind with
    | provider =>
      refine ⟨?_, ?_, hRefines.nextId, hRefines.handed, hRefines.ids, hLive⟩
      · exact hRefines.providers.dispose fun r hMem other hOther =>
          Registration.providerFor?_eq_none (.inr (hType r hMem other hOther))
      · exact hRefines.factories.disposeOther fun r hMem other =>
          Registration.factoryFor?_eq_none (.inl (by simp [hNamed r hMem]))
    | factory =>
      refine ⟨?_, ?_, hRefines.nextId, hRefines.handed, hRefines.ids, hLive⟩
      · exact hRefines.providers.disposeOther fun r hMem other =>
          Registration.providerFor?_eq_none (.inl (by simp [hNamed r hMem]))
      · exact hRefines.factories.dispose fun r hMem other hOther =>
          Registration.factoryFor?_eq_none (.inr (hType r hMem other hOther))

theorem Refines.step (hRefines : Refines h l) (action : RegistryAction) :
    Refines (h.step action) (l.step action) := by
  cases action with
  | register r => exact hRefines.register r
  | dispose n => exact hRefines.dispose n

theorem Refines.after (hRefines : Refines h l) (actions : List RegistryAction) :
    Refines (h.after actions) (l.after actions) := by
  induction actions generalizing h l with
  | nil => exact hRefines
  | cons action rest ih => exact ih (hRefines.step action)

/-- What is on the list determines what the registry holds. -/
theorem Refines.held {other : RegistryHistory} {m : Listing} (hRefines : Refines h l)
    (hOther : Refines other m) (hLive : m.live = l.live) :
    other.registry.providers = h.registry.providers ∧
      other.registry.factories = h.registry.factories := by
  have hProviders := hOther.providers
  have hFactories := hOther.factories
  rw [hLive] at hProviders hFactories
  exact ⟨hProviders.unique hRefines.providers, hFactories.unique hRefines.factories⟩

theorem Refines.unique {other : RegistryHistory} (hRefines : Refines h l)
    (hOther : Refines other l) : other.registry = h.registry := by
  obtain ⟨hProviders, hFactories⟩ := hRefines.held hOther rfl
  have hNextId := hOther.nextId.trans hRefines.nextId.symm
  calc other.registry
      = ⟨other.registry.providers, other.registry.factories, other.registry.nextId⟩ := rfl
    _ = h.registry := by rw [hProviders, hFactories, hNextId]

end RegistryHistory

namespace Listing

variable {l : Listing}

theorem after_append (l : Listing) (first rest : List RegistryAction) :
    l.after (first ++ rest) = (l.after first).after rest :=
  List.foldl_append

theorem step_dispose_comm (l : Listing) (n m : Nat) :
    (l.step (.dispose n)).step (.dispose m) = (l.step (.dispose m)).step (.dispose n) := by
  simp only [step, List.filter_filter, Bool.and_comm]

/-- The numbers on the list were given to registrations made before. -/
def Numbered (l : Listing) : Prop := ∀ entry ∈ l.live, entry.1 < l.made

theorem made_le_step (l : Listing) (action : RegistryAction) : l.made ≤ (l.step action).made := by
  cases action with
  | register r => exact Nat.le_succ _
  | dispose n => exact Nat.le_refl _

theorem Numbered.step (h : l.Numbered) (action : RegistryAction) : (l.step action).Numbered := by
  cases action with
  | register r =>
    intro entry hMem
    rcases List.mem_append.mp hMem with hOld | hNew
    · exact Nat.lt_succ_of_lt (h entry hOld)
    · rw [List.mem_singleton.mp hNew]
      exact Nat.lt_succ_self _
  | dispose n => exact fun entry hMem => h entry (List.mem_filter.mp hMem).1

theorem Numbered.after (h : l.Numbered) (actions : List RegistryAction) :
    (l.after actions).Numbered := by
  induction actions generalizing l with
  | nil => exact h
  | cons action rest ih => exact ih (h.step action)

/-- A number that was given and is not on the list does not come back. -/
theorem gone_after {n : Nat} (hMade : n < l.made) (hGone : ∀ entry ∈ l.live, entry.1 ≠ n)
    (actions : List RegistryAction) : ∀ entry ∈ (l.after actions).live, entry.1 ≠ n := by
  induction actions generalizing l with
  | nil => exact hGone
  | cons action rest ih =>
    apply ih (hMade.trans_le (l.made_le_step action))
    cases action with
    | register r =>
      intro entry hMem
      rcases List.mem_append.mp hMem with hOld | hNew
      · exact hGone entry hOld
      · rw [List.mem_singleton.mp hNew]
        exact (Nat.ne_of_lt hMade).symm
    | dispose m => exact fun entry hMem => hGone entry (List.mem_filter.mp hMem).1

/-- Where only what is made later is disposed, what was on the list stays as it is. -/
theorem live_after_of_later (h : l.Numbered) {actions : List RegistryAction}
    (hLater : ∀ n, .dispose n ∈ actions → l.made ≤ n) :
    ∃ added, (l.after actions).live = l.live ++ added ∧ ∀ entry ∈ added, l.made ≤ entry.1 := by
  -- Along the way the list is the old one and what was added, behind numbers that are all below.
  have hAll : ∀ (m : Listing) (added : List (Nat × Registration)), m.live = l.live ++ added →
      (∀ entry ∈ added, l.made ≤ entry.1) → l.made ≤ m.made →
      ∃ added, (m.after actions).live = l.live ++ added ∧ ∀ entry ∈ added, l.made ≤ entry.1 := by
    induction actions with
    | nil => exact fun m added hLive hAdded _ => ⟨added, hLive, hAdded⟩
    | cons action rest ih =>
      intro m added hLive hAdded hMade
      have hRest : ∀ n, .dispose n ∈ rest → l.made ≤ n := fun n hMem =>
        hLater n (List.mem_cons_of_mem _ hMem)
      cases action with
      | register r =>
        refine ih hRest _ (added ++ [(m.made, r)]) ?_ ?_ (hMade.trans (Nat.le_succ _))
        · show m.live ++ _ = _
          rw [hLive, List.append_assoc]
        · intro entry hMem
          rcases List.mem_append.mp hMem with hOld | hNew
          · exact hAdded entry hOld
          · rw [List.mem_singleton.mp hNew]
            exact hMade
      | dispose n =>
        have hNew := hLater n List.mem_cons_self
        refine ih hRest _ (added.filter fun entry => entry.1 ≠ n) ?_ ?_ hMade
        · show m.live.filter _ = _
          rw [hLive, List.filter_append, List.filter_eq_self.mpr]
          intro entry hMem
          exact decide_eq_true (Nat.ne_of_lt (Nat.lt_of_lt_of_le (h entry hMem) hNew))
        · exact fun entry hMem => hAdded entry (List.mem_filter.mp hMem).1
  exact hAll l [] (List.append_nil _).symm (by simp) (Nat.le_refl _)

/-- From here on these actions dispose exactly what they register: nothing that was registered
before, and everything else at some time after it was registered. -/
structure Undone (l : Listing) (actions : List RegistryAction) : Prop where
  later : ∀ n, .dispose n ∈ actions → l.made ≤ n
  all : ∀ n, l.made ≤ n → n < (l.after actions).made →
    ∃ first rest, actions = first ++ .dispose n :: rest ∧ n < (l.after first).made

theorem Undone.live (hUndone : l.Undone actions) (h : l.Numbered) :
    (l.after actions).live = l.live := by
  obtain ⟨added, hLive, hAdded⟩ := live_after_of_later h hUndone.later
  cases added with
  | nil => rw [hLive, List.append_nil]
  | cons entry rest =>
    have hMem : entry ∈ (l.after actions).live := by
      rw [hLive]
      exact List.mem_append_right _ List.mem_cons_self
    obtain ⟨first, last, hActions, hMade⟩ := hUndone.all entry.1
      (hAdded entry List.mem_cons_self) (h.after actions entry hMem)
    -- It was disposed, so it is not on the list.
    have hGone : ∀ other ∈ ((l.after first).step (.dispose entry.1)).live, other.1 ≠ entry.1 :=
      fun other hOther => of_decide_eq_true (List.mem_filter.mp hOther).2
    have hEnd : l.after actions = ((l.after first).step (.dispose entry.1)).after last := by
      rw [hActions, after_append]
      rfl
    rw [hEnd] at hMem
    have hGiven : entry.1 < ((l.after first).step (.dispose entry.1)).made := hMade
    exact absurd rfl (gone_after hGiven hGone last entry hMem)

end Listing

/-- The registry answers as the list says. -/
structure Registry.Answers (r : Registry) (l : Listing) : Prop where
  hasProvider : ∀ debugType, r.hasProvider debugType = true ↔
    ∃ entry ∈ l.live, ∃ provider, entry.2 = ⟨debugType, .provider provider⟩
  hasDescriptorFactory : ∀ debugType, r.hasDescriptorFactory debugType = true ↔
    ∃ entry ∈ l.live, ∃ factory, entry.2 = ⟨debugType, .factory factory⟩
  resolve : r.resolve = l.resolve
  descriptorFor : r.descriptorFor = l.descriptorFor

/-- Two registries that answer alike whatever they are asked. -/
structure Registry.Alike (r other : Registry) : Prop where
  hasProvider : r.hasProvider = other.hasProvider
  hasDescriptorFactory : r.hasDescriptorFactory = other.hasDescriptorFactory
  resolve : r.resolve = other.resolve
  descriptorFor : r.descriptorFor = other.descriptorFor

theorem Registry.alike {r other : Registry} (hProviders : r.providers = other.providers)
    (hFactories : r.factories = other.factories) : r.Alike other := by
  constructor
  · funext debugType
    rw [hasProvider, hasProvider, hProviders]
  · funext debugType
    rw [hasDescriptorFactory, hasDescriptorFactory, hFactories]
  · funext folder config token
    rw [resolve, resolve, hProviders]
  · funext session executable
    rw [descriptorFor, descriptorFor, hFactories]

namespace Registration

variable {r : Registration} {debugType : String}

theorem providerFor?_eq_some_iff {provider : ConfigurationProvider} :
    r.providerFor? debugType = some provider ↔ r = ⟨debugType, .provider provider⟩ := by
  obtain ⟨own, item⟩ := r
  cases item <;> simp [providerFor?]

theorem factoryFor?_eq_some_iff {factory : DescriptorFactory} :
    r.factoryFor? debugType = some factory ↔ r = ⟨debugType, .factory factory⟩ := by
  obtain ⟨own, item⟩ := r
  cases item <;> simp [factoryFor?]

end Registration

theorem Listing.ask_none (folder : Option WorkspaceFolder) (providers : List ConfigurationProvider)
    (token : Option CancellationToken) :
    providers.foldl (ask folder) (none, token) = (none, token) := by
  induction providers with
  | nil => rfl
  | cons provider rest ih => exact ih

/-- Asking the providers one after the other, and the token in the end. -/
theorem Registry.runProviders_eq (folder : Option WorkspaceFolder)
    (providers : List ConfigurationProvider) (config : LaunchConfiguration)
    (token : Option CancellationToken) :
    runProviders folder providers config token =
      match providers.foldl (Listing.ask folder) (some config, token) with
      | (none, token) => (.error .cancelled, token)
      | (some config, token) =>
        if token.any (·.cancelled) then (.error .cancelled, token) else (.ok config, token) := by
  induction providers generalizing config token with
  | nil => rfl
  | cons provider rest ih =>
    rw [runProviders, List.foldl_cons]
    cases hAnswer : provider folder config token with
    | mk answer later =>
      cases answer with
      | none =>
        simp only [Listing.ask, hAnswer]
        rw [Listing.ask_none]
      | some next =>
        simp only [Listing.ask, hAnswer]
        exact ih next later

namespace RegistryHistory

variable {h : RegistryHistory} {l : Listing}

/-- Something was picked exactly when there is an entry to pick it from. -/
theorem not_isEmpty_iff {α : Type} {pick : Registration → Option α} {make : α → Registration}
    (hPick : ∀ {r item}, pick r = some item ↔ r = make item) {live : List (Nat × Registration)} :
    (!(live.filterMap fun entry => pick entry.2).isEmpty) = true ↔
      ∃ entry ∈ live, ∃ item, entry.2 = make item := by
  rw [Bool.not_eq_true', List.isEmpty_eq_false_iff_exists_mem]
  simp only [List.mem_filterMap, hPick]
  constructor
  · rintro ⟨item, entry, hMem, hMade⟩
    exact ⟨entry, hMem, item, hMade⟩
  · rintro ⟨entry, hMem, item, hMade⟩
    exact ⟨item, entry, hMem, hMade⟩

theorem Refines.answers (hRefines : Refines h l) : h.registry.Answers l := by
  have hProviders debugType : h.registry.providers.items debugType = l.providers debugType :=
    (hRefines.providers.items debugType).trans numbered_items
  have hFactories debugType : h.registry.factories.items debugType =
      l.live.filterMap (·.2.factoryFor? debugType) :=
    (hRefines.factories.items debugType).trans numbered_items
  constructor
  · intro debugType
    rw [Registry.hasProvider, hProviders]
    exact not_isEmpty_iff Registration.providerFor?_eq_some_iff
  · intro debugType
    rw [Registry.hasDescriptorFactory, hFactories]
    exact not_isEmpty_iff Registration.factoryFor?_eq_some_iff
  · funext folder config token
    rw [Registry.resolve, Listing.resolve]
    cases config.debugType? with
    | none => rfl
    | some debugType =>
      simp only [hProviders]
      exact Registry.runProviders_eq ..
  · funext session executable
    unfold Registry.descriptorFor Listing.descriptorFor
    cases hFound : l.live.reverse.findSome? (·.2.factoryFor? session.debugType) with
    | none => simp only [hFactories, List.getLast?_filterMap, hFound]
    | some factory => simp only [hFactories, List.getLast?_filterMap, hFound]

end RegistryHistory

open RegistryHistory (start)

/-- Whatever was registered and disposed, the registry answers as the list of what is still
registered says. Disposing takes one registration out of the list and leaves the others in their
order; in which order two are disposed makes no difference; and what disposes exactly what it
registered leaves the answers that there were before. -/
theorem registry_refines_listing (before : List RegistryAction) :
    (start.after before).registry.Answers (Listing.empty.after before) ∧
    (∀ n, (start.after (before ++ [.dispose n])).registry.Answers
      ⟨(Listing.empty.after before).made,
        (Listing.empty.after before).live.filter fun entry => entry.1 ≠ n⟩) ∧
    (∀ n m, (start.after (before ++ [.dispose n, .dispose m])).registry =
      (start.after (before ++ [.dispose m, .dispose n])).registry) ∧
    (∀ since, (Listing.empty.after before).Undone since →
      (start.after (before ++ since)).registry.Alike (start.after before).registry) := by
  have hRefines (actions : List RegistryAction) :
      (start.after actions).Refines (Listing.empty.after actions) :=
    RegistryHistory.refines_start.after actions
  have hDisposed (n : Nat) : Listing.empty.after (before ++ [.dispose n]) =
      (Listing.empty.after before).step (.dispose n) := Listing.after_append ..
  refine ⟨(hRefines before).answers, fun n => ?_, fun n m => ?_, fun since hUndone => ?_⟩
  · have hAnswers := (hRefines (before ++ [.dispose n])).answers
    rw [hDisposed] at hAnswers
    exact hAnswers
  · have hTwo (n m : Nat) : Listing.empty.after (before ++ [.dispose n, .dispose m]) =
        ((Listing.empty.after before).step (.dispose n)).step (.dispose m) :=
      Listing.after_append ..
    have hFirst := hRefines (before ++ [.dispose n, .dispose m])
    have hSecond := hRefines (before ++ [.dispose m, .dispose n])
    rw [hTwo, Listing.step_dispose_comm, ← hTwo] at hFirst
    exact hSecond.unique hFirst
  · have hLive : (Listing.empty.after (before ++ since)).live =
        (Listing.empty.after before).live := by
      rw [Listing.after_append]
      apply hUndone.live
      exact Listing.Numbered.after (fun entry hMem => by cases hMem) before
    obtain ⟨hProviders, hFactories⟩ := (hRefines before).held (hRefines (before ++ since)) hLive
    exact Registry.alike hProviders hFactories

/-- A provider that calls every start off. -/
def refusingProvider : ConfigurationProvider := fun _ _ token => (none, token)

def firstRegistrations : List RegistryAction :=
  [.register ⟨"java", .provider javaProvider⟩, .register ⟨"node", .provider refusingProvider⟩,
    .register ⟨"java", .factory (serverFactory .standard)⟩, .dispose 1]

def passingRegistrations : List RegistryAction :=
  [.register ⟨"java", .provider refusingProvider⟩,
    .register ⟨"node", .factory (serverFactory .standard)⟩,
    .dispose 4, .dispose 3]

theorem passingRegistrations_undone :
    (Listing.empty.after firstRegistrations).Undone passingRegistrations where
  later n hMem := by
    show 3 ≤ n
    simp only [passingRegistrations, List.mem_cons, RegistryAction.dispose.injEq, reduceCtorEq,
      List.not_mem_nil, false_or, or_false] at hMem
    omega
  all n hFrom hTo := by
    have hRange : n = 3 ∨ n = 4 := by
      have hLow : 3 ≤ n := hFrom
      have hHigh : n < 5 := hTo
      omega
    rcases hRange with rfl | rfl
    · exact ⟨passingRegistrations.take 3, [], rfl, by decide⟩
    · exact ⟨passingRegistrations.take 2, [.dispose 3], rfl, by decide⟩

theorem passing_registrations_restore :
    (start.after (firstRegistrations ++ passingRegistrations)).registry.Alike
        (start.after firstRegistrations).registry ∧
      (start.after firstRegistrations).registry.hasProvider "java" = true ∧
      (start.after firstRegistrations).registry.hasProvider "node" = false := by
  obtain ⟨-, -, -, hRestores⟩ := registry_refines_listing firstRegistrations
  refine ⟨hRestores passingRegistrations passingRegistrations_undone, ?_, ?_⟩ <;> decide +kernel

end EditorBridge.Debug
