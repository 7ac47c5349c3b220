/-!
Finite maps from texts to values, kept as lists in the order of their keys. A lookup sees the value
that was inserted last; inserting or erasing one key leaves the lookup of every other key alone, and
keeps the keys increasing.
-/
namespace EditorBridge

/-- A finite map with text keys. What `insert` and `erase` build from `[]` has strictly increasing
keys, so it has one entry per key. -/
abbrev Keyed (α : Type) := List (String × α)

namespace Keyed

variable {α : Type}

def find? (m : Keyed α) (key : String) : Option α :=
  match m with
  | [] => none
  | (k, v) :: rest => if k = key then some v else find? rest key

def has (m : Keyed α) (key : String) : Bool := (m.find? key).isSome

/-- Sets the value of a key and keeps the order. -/
def insert (m : Keyed α) (key : String) (value : α) : Keyed α :=
  match m with
  | [] => [(key, value)]
  | (k, v) :: rest =>
    if k = key then (key, value) :: rest
    else if key < k then (key, value) :: (k, v) :: rest
    else (k, v) :: insert rest key value

/-- Takes a key out. The others keep their order. -/
def erase (m : Keyed α) (key : String) : Keyed α := m.filter fun entry => entry.1 ≠ key

/-- The map of a list of entries; the last entry of a key counts. -/
def ofEntries (entries : List (String × α)) : Keyed α :=
  entries.foldl (fun m entry => m.insert entry.1 entry.2) []

/-- The keys increase, so there is one entry per key. -/
def Sorted (m : Keyed α) : Prop := m.Pairwise fun a b => a.1 < b.1

@[simp] theorem find?_nil (key : String) : find? ([] : Keyed α) key = none := rfl

@[simp] theorem find?_insert_self (m : Keyed α) (key : String) (value : α) :
    (m.insert key value).find? key = some value := by
  induction m with
  | nil => simp [insert, find?]
  | cons entry rest ih =>
    obtain ⟨k, v⟩ := entry
    simp only [insert]
    split
    · simp [find?]
    · split
      · simp [find?]
      · simp_all [find?]

theorem find?_insert_of_ne (m : Keyed α) {key other : String} (value : α) (hNe : other ≠ key) :
    (m.insert key value).find? other = m.find? other := by
  induction m with
  | nil => simp [insert, find?, Ne.symm hNe]
  | cons entry rest ih =>
    obtain ⟨k, v⟩ := entry
    simp only [insert]
    split
    · rename_i h; subst h; simp [find?, Ne.symm hNe]
    · split
      · simp [find?, Ne.symm hNe]
      · simp [find?, ih]

@[simp] theorem find?_erase_self (m : Keyed α) (key : String) : (m.erase key).find? key = none := by
  induction m with
  | nil => rfl
  | cons entry rest ih =>
    obtain ⟨k, v⟩ := entry
    by_cases h : k = key <;> simp_all [erase, find?]

theorem find?_erase_of_ne (m : Keyed α) {key other : String} (hNe : other ≠ key) :
    (m.erase key).find? other = m.find? other := by
  induction m with
  | nil => rfl
  | cons entry rest ih =>
    obtain ⟨k, v⟩ := entry
    by_cases h : k = key
    · subst h
      simp_all [erase, find?, Ne.symm hNe]
    · simp_all [erase, find?]

theorem sorted_nil : Sorted ([] : Keyed α) := List.Pairwise.nil

theorem mem_insert {m : Keyed α} {key : String} {value : α} {entry : String × α}
    (h : entry ∈ m.insert key value) : entry = (key, value) ∨ entry ∈ m := by
  induction m with
  | nil => exact .inl (List.mem_singleton.mp h)
  | cons first rest ih =>
    simp only [insert] at h
    split at h
    · exact (List.mem_cons.mp h).imp id (List.mem_cons_of_mem _)
    · split at h
      · exact List.mem_cons.mp h
      · rcases List.mem_cons.mp h with rfl | hRest
        · exact .inr List.mem_cons_self
        · exact (ih hRest).imp id (List.mem_cons_of_mem _)

theorem Sorted.insert {m : Keyed α} (h : m.Sorted) (key : String) (value : α) :
    (m.insert key value).Sorted := by
  induction m with
  | nil => exact List.pairwise_singleton ..
  | cons first rest ih =>
    obtain ⟨k, v⟩ := first
    obtain ⟨hFirst, hRest⟩ := List.pairwise_cons.mp h
    simp only [Keyed.insert]
    split
    · rename_i hSame
      exact List.pairwise_cons.mpr ⟨hSame ▸ hFirst, hRest⟩
    · rename_i hOther
      split
      · rename_i hLess
        refine List.pairwise_cons.mpr ⟨fun entry hEntry => ?_, h⟩
        rcases List.mem_cons.mp hEntry with rfl | hEntry
        · exact hLess
        · exact String.lt_trans hLess (hFirst entry hEntry)
      · rename_i hNotLess
        refine List.pairwise_cons.mpr ⟨fun entry hEntry => ?_, ih hRest⟩
        rcases mem_insert hEntry with rfl | hEntry
        · exact Std.lt_of_le_of_ne (String.not_lt.mp hNotLess) hOther
        · exact hFirst entry hEntry

theorem Sorted.ofEntries (entries : List (String × α)) : (Keyed.ofEntries entries).Sorted := by
  have hAll : ∀ m : Keyed α, m.Sorted →
      Sorted (entries.foldl (fun m entry => m.insert entry.1 entry.2) m) := by
    induction entries with
    | nil => exact fun m h => h
    | cons entry rest ih => exact fun m h => ih _ (h.insert entry.1 entry.2)
  exact hAll [] sorted_nil

theorem Sorted.erase {m : Keyed α} (h : m.Sorted) (key : String) : (m.erase key).Sorted :=
  List.Pairwise.sublist List.filter_sublist h

end Keyed
end EditorBridge
