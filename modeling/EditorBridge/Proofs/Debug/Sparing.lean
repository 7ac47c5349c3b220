import EditorBridge.Proofs.Debug.Listing
import Mathlib.Data.Nat.Count
/-!
A history of the registry from which some registrations are left out. The numbers of the others
close up, and what the list holds of them is the same, so a registry that disposes some of its
registrations answers as if they had never been made.
-/
namespace EditorBridge.Debug

/-- The number that a registration has when those with certain numbers are not made. -/
def place (gone : List Nat) (n : Nat) : Nat := Nat.count (· ∉ gone) n

/-- Actions of which certain registrations are left out, with what disposes them. The first of the
actions that registers something would make the registration with the given number. -/
def spared (gone : List Nat) : Nat → List RegistryAction → List RegistryAction
  | _, [] => []
  | made, .register r :: rest =>
    if made ∈ gone then spared gone (made + 1) rest else .register r :: spared gone (made + 1) rest
  | made, .dispose n :: rest =>
    if n ∈ gone then spared gone made rest else .dispose (place gone n) :: spared gone made rest

/-- A list without certain registrations, with the numbers closed up. -/
def Listing.spare (gone : List Nat) (l : Listing) : Listing where
  made := place gone l.made
  live := (l.live.filter fun entry => entry.1 ∉ gone).map fun entry => (place gone entry.1, entry.2)

variable {gone : List Nat} {m n : Nat} {l : Listing}

theorem place_succ_of_mem (hGone : n ∈ gone) : place gone (n + 1) = place gone n := by
  simp [place, Nat.count_succ, hGone]

theorem place_succ_of_not_mem (hKept : n ∉ gone) : place gone (n + 1) = place gone n + 1 := by
  simp [place, Nat.count_succ, hKept]

/-- Different registrations that are kept have different places. -/
theorem place_inj (hFirst : m ∉ gone) (hSecond : n ∉ gone) :
    place gone m = place gone n ↔ m = n :=
  ⟨Nat.count_injective hFirst hSecond, congrArg _⟩

namespace Listing

theorem spare_register_of_mem (hGone : l.made ∈ gone) (r : Registration) :
    (l.step (.register r)).spare gone = l.spare gone := by
  simp [spare, step, place_succ_of_mem hGone, hGone]

theorem spare_register_of_not_mem (hKept : l.made ∉ gone) (r : Registration) :
    (l.step (.register r)).spare gone = (l.spare gone).step (.register r) := by
  simp [spare, step, place_succ_of_not_mem hKept, hKept]

theorem spare_dispose_of_mem (hGone : n ∈ gone) :
    (l.step (.dispose n)).spare gone = l.spare gone := by
  have hSame : (l.live.filter fun entry => entry.1 ≠ n).filter (fun entry => entry.1 ∉ gone) =
      l.live.filter fun entry => entry.1 ∉ gone := by
    rw [List.filter_filter]
    refine List.filter_congr fun entry _ => ?_
    by_cases hNumber : entry.1 = n <;> simp [hNumber, hGone]
  simp only [spare, step, hSame]

theorem spare_dispose_of_not_mem (hKept : n ∉ gone) :
    (l.step (.dispose n)).spare gone = (l.spare gone).step (.dispose (place gone n)) := by
  have hSame : (l.live.filter fun entry => entry.1 ≠ n).filter (fun entry => entry.1 ∉ gone) =
      (l.live.filter fun entry => entry.1 ∉ gone).filter
        fun entry => place gone entry.1 ≠ place gone n := by
    rw [List.filter_filter, List.filter_filter]
    refine List.filter_congr fun entry _ => ?_
    by_cases hGone : entry.1 ∈ gone
    · simp [hGone]
    · simp [hGone, place_inj hGone hKept]
  simp only [spare, step, hSame, List.filter_map]
  rfl

/-- Leaving registrations out of the actions leaves them out of the list. -/
theorem spare_after (gone : List Nat) (l : Listing) (actions : List RegistryAction) :
    (l.spare gone).after (spared gone l.made actions) = (l.after actions).spare gone := by
  -- An action that is left out changes nothing of what is kept, and another does the same to it.
  induction actions generalizing l with
  | nil => rfl
  | cons action rest ih =>
    cases action with
    | register r =>
      have hRest := ih (l.step (.register r))
      rw [spared]
      split
      · rename_i hGone
        rwa [spare_register_of_mem hGone] at hRest
      · rename_i hKept
        rwa [spare_register_of_not_mem hKept] at hRest
    | dispose n =>
      have hRest := ih (l.step (.dispose n))
      rw [spared]
      split
      · rename_i hGone
        rwa [spare_dispose_of_mem hGone] at hRest
      · rename_i hKept
        rwa [spare_dispose_of_not_mem hKept] at hRest

theorem after_disposals (l : Listing) (numbers : List Nat) :
    l.after (numbers.map .dispose) =
      ⟨l.made, l.live.filter fun entry => entry.1 ∉ numbers⟩ := by
  induction numbers generalizing l with
  | nil => simp [after]
  | cons n rest ih =>
    have hEntries : (l.live.filter fun entry => entry.1 ≠ n).filter
        (fun entry => entry.1 ∉ rest) = l.live.filter fun entry => entry.1 ∉ n :: rest := by
      rw [List.filter_filter]
      refine List.filter_congr fun entry _ => ?_
      by_cases hNumber : entry.1 = n <;> simp [hNumber]
    calc l.after ((n :: rest).map .dispose)
        = (l.step (.dispose n)).after (rest.map .dispose) := rfl
      _ = ⟨l.made, l.live.filter fun entry => entry.1 ∉ n :: rest⟩ := by
        rw [ih, ← hEntries]
        rfl

/-- A list from which registrations have been taken goes on as if they had never been made. -/
theorem spare_after_disposed (hMade : ∀ n ∈ gone, n < l.made) (later : List RegistryAction) :
    let d : Listing := ⟨l.made, l.live.filter fun entry => entry.1 ∉ gone⟩
    ((l.after later).spare gone).live =
      (d.after later).live.map fun entry => (place gone entry.1, entry.2) := by
  intro d
  have hSpared : d.spare gone = l.spare gone := by simp [spare, d]
  -- Numbers are not given twice, so what was taken does not come back.
  have hGone : ∀ entry ∈ (d.after later).live, entry.1 ∉ gone := fun entry hMem hIn =>
    gone_after (l := d) (hMade _ hIn)
      (fun other hOther hSame => by simp [d, hSame, hIn] at hOther) later entry hMem rfl
  calc ((l.after later).spare gone).live
      = ((d.after later).spare gone).live := by
        rw [← spare_after, ← spare_after, hSpared]
    _ = (d.after later).live.map fun entry => (place gone entry.1, entry.2) := by
        rw [spare, List.filter_eq_self.mpr fun entry hMem => decide_eq_true (hGone entry hMem)]

end Listing

/-- Registries that hold the same items answer alike. -/
theorem Registry.alike_of_items {r other : Registry}
    (hProviders : ∀ debugType, r.providers.items debugType = other.providers.items debugType)
    (hFactories : ∀ debugType, r.factories.items debugType = other.factories.items debugType) :
    r.Alike other := by
  constructor
  · funext debugType
    rw [hasProvider, hasProvider, hProviders]
  · funext debugType
    rw [hasDescriptorFactory, hasDescriptorFactory, hFactories]
  · funext folder config token
    simp only [resolve, hProviders]
  · funext session executable
    rw [descriptorFor, descriptorFor, hFactories]

namespace RegistryHistory

/-- Subscriptions are the disposables that were handed out for registrations with certain
numbers. -/
def Holds (h : RegistryHistory) (numbers : List Nat) (subscriptions : List Disposable) : Prop :=
  subscriptions.map some = numbers.map (h.handed[·]?)

variable {h other : RegistryHistory} {numbers : List Nat} {subscriptions : List Disposable}

/-- The numbers on a list have no influence on the answers. -/
theorem Refines.alike {m : Listing} (hRefines : Refines h l) (hOther : Refines other m)
    (hSame : l.live.map (·.2) = m.live.map (·.2)) : h.registry.Alike other.registry := by
  have hItems {α : Type} (pick : Registration → String → Option α) (debugType : String) :
      (numbered pick l.live debugType).map (·.2) = (numbered pick m.live debugType).map (·.2) := by
    have hPicked := congrArg (List.filterMap (pick · debugType)) hSame
    rw [List.filterMap_map, List.filterMap_map] at hPicked
    rw [numbered_items, numbered_items]
    exact hPicked
  apply Registry.alike_of_items
  · intro debugType
    rw [hRefines.providers.items, hOther.providers.items, hItems]
  · intro debugType
    rw [hRefines.factories.items, hOther.factories.items, hItems]

theorem after_append (h : RegistryHistory) (first rest : List RegistryAction) :
    h.after (first ++ rest) = (h.after first).after rest :=
  List.foldl_append

/-- What was handed out stays what it is. -/
theorem handed_step_grows (h : RegistryHistory) (action : RegistryAction) :
    h.handed <+: (h.step action).handed := by
  cases action with
  | register r => exact List.prefix_append ..
  | dispose n =>
    rw [step]
    split <;> exact List.prefix_rfl

theorem handed_grows (h : RegistryHistory) (actions : List RegistryAction) :
    h.handed <+: (h.after actions).handed := by
  induction actions generalizing h with
  | nil => exact List.prefix_rfl
  | cons action rest ih => exact (h.handed_step_grows action).trans (ih _)

/-- All of the numbers have been handed out. -/
theorem Holds.lt_length (hHolds : h.Holds numbers subscriptions) (hMem : n ∈ numbers) :
    n < h.handed.length := by
  have hIn : h.handed[n]? ∈ subscriptions.map some := hHolds ▸ List.mem_map_of_mem hMem
  obtain ⟨d, -, hGet⟩ := List.mem_map.mp hIn
  exact (List.getElem?_eq_some_iff.mp hGet.symm).1

theorem Holds.extend (hHolds : h.Holds numbers subscriptions)
    (hPrefix : h.handed <+: other.handed) : other.Holds numbers subscriptions := by
  obtain ⟨later, hLater⟩ := hPrefix
  refine hHolds.trans (List.map_congr_left fun n hMem => ?_)
  rw [← hLater, List.getElem?_append_left (hHolds.lt_length hMem)]

theorem Holds.append {numbers' : List Nat} {subscriptions' : List Disposable}
    (hHolds : h.Holds numbers subscriptions) (hMore : h.Holds numbers' subscriptions') :
    h.Holds (numbers ++ numbers') (subscriptions ++ subscriptions') := by
  rw [Holds, List.map_append, List.map_append, hHolds, hMore]

theorem Holds.reverse (hHolds : h.Holds numbers subscriptions) :
    h.Holds numbers.reverse subscriptions.reverse := by
  rw [Holds, List.map_reverse, List.map_reverse, hHolds]

/-- Calling the disposables is what the actions do that dispose their registrations. -/
theorem after_disposals (hHolds : h.Holds numbers subscriptions) :
    h.after (numbers.map .dispose) =
      ⟨subscriptions.foldl Registry.dispose h.registry, h.handed⟩ := by
  induction numbers generalizing h subscriptions with
  | nil =>
    obtain rfl : subscriptions = [] := List.map_eq_nil_iff.mp hHolds
    rfl
  | cons n rest ih =>
    obtain ⟨d, others, rfl, hGet, hRest⟩ := List.map_eq_cons_iff.mp hHolds
    have hStep : h.step (.dispose n) = ⟨h.registry.dispose d, h.handed⟩ := by
      simp only [step, ← hGet]
    have hKept : (⟨h.registry.dispose d, h.handed⟩ : RegistryHistory).Holds rest others := hRest
    calc h.after ((n :: rest).map .dispose)
        = (h.step (.dispose n)).after (rest.map .dispose) := rfl
      _ = ⟨(d :: others).foldl Registry.dispose h.registry, h.handed⟩ := by
        rw [hStep, ih hKept]
        rfl

/-- Disposing registrations, the latest first, takes them out of the list. -/
theorem refines_disposals (actions : List RegistryAction) (numbers : List Nat) :
    Refines (start.after (actions ++ numbers.reverse.map .dispose))
      ⟨(Listing.empty.after actions).made,
        (Listing.empty.after actions).live.filter fun entry => entry.1 ∉ numbers⟩ := by
  have hRefines := refines_start.after (actions ++ numbers.reverse.map .dispose)
  rw [Listing.after_append, Listing.after_disposals] at hRefines
  simpa only [List.mem_reverse] using hRefines

/-- From then on the registry answers as if they had never been made. -/
theorem alike_spared {actions : List RegistryAction}
    (hMade : ∀ n ∈ numbers, n < (Listing.empty.after actions).made) (later : List RegistryAction) :
    ((start.after (actions ++ numbers.reverse.map .dispose)).after later).registry.Alike
      (start.after (spared numbers 0 (actions ++ later))).registry := by
  have hDisposed := (refines_disposals actions numbers).after later
  have hSpared : Refines (start.after (spared numbers 0 (actions ++ later)))
      (((Listing.empty.after actions).after later).spare numbers) := by
    rw [← Listing.after_append, ← Listing.spare_after]
    exact refines_start.after _
  refine hDisposed.alike hSpared ?_
  rw [Listing.spare_after_disposed hMade, List.map_map]
  rfl

end RegistryHistory
end EditorBridge.Debug
