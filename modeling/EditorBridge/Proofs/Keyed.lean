import EditorBridge.Keyed
import Mathlib.Data.List.Nodup
import Mathlib.Data.List.Perm.Basic
import Mathlib.Data.String.Basic
/-!
Finite maps whose keys increase. Such a map is the map of its own entries, and what is looked up in
it is what stands in it.
-/
namespace EditorBridge.Keyed

variable {α : Type}

/-- There is one entry per key. -/
def Distinct (m : Keyed α) : Prop := (m.map Prod.fst).Nodup

theorem Sorted.distinct {m : Keyed α} (h : m.Sorted) : m.Distinct :=
  List.pairwise_map.mpr (h.imp fun hLess => ne_of_lt hLess)

theorem find?_eq_none_iff {m : Keyed α} {key : String} :
    m.find? key = none ↔ ∀ entry ∈ m, entry.1 ≠ key := by
  induction m with
  | nil => simp
  | cons entry rest ih =>
    by_cases h : entry.1 = key <;> simp [find?, h, ih]

theorem mem_of_find? {m : Keyed α} {key : String} {value : α} (h : m.find? key = some value) :
    (key, value) ∈ m := by
  induction m with
  | nil => cases h
  | cons entry rest ih =>
    obtain ⟨k, v⟩ := entry
    rw [find?] at h
    split at h
    · rename_i hSame
      rw [hSame, Option.some.inj h]
      exact List.mem_cons_self
    · exact List.mem_cons_of_mem _ (ih h)

/-- What is looked up is what stands in the map. -/
theorem Distinct.find?_eq_some_iff {m : Keyed α} (h : m.Distinct) {key : String} {value : α} :
    m.find? key = some value ↔ (key, value) ∈ m := by
  induction m with
  | nil => simp
  | cons entry rest ih =>
    obtain ⟨k, v⟩ := entry
    obtain ⟨hNew, hRest⟩ := List.nodup_cons.mp h
    by_cases hSame : k = key
    · subst hSame
      have hOnly : (k, value) ∉ rest := fun hMem =>
        hNew (List.mem_map.mpr ⟨_, hMem, rfl⟩)
      simp [find?, hOnly, eq_comm]
    · simp [find?, hSame, ih hRest, Ne.symm hSame]

/-- Two maps whose keys increase are the same when they find the same. -/
theorem Sorted.ext {m other : Keyed α} (h : m.Sorted) (hOther : other.Sorted)
    (hFound : ∀ key, m.find? key = other.find? key) : m = other := by
  have hPerm : m.Perm other := by
    rw [List.perm_ext_iff_of_nodup (List.Nodup.of_map _ h.distinct)
      (List.Nodup.of_map _ hOther.distinct)]
    rintro ⟨key, value⟩
    rw [← h.distinct.find?_eq_some_iff, ← hOther.distinct.find?_eq_some_iff, hFound]
  exact hPerm.eq_of_pairwise (fun _ _ _ _ hLess hMore => absurd hMore (lt_asymm hLess)) h hOther

theorem erase_of_find?_eq_none {m : Keyed α} {key : String} (h : m.find? key = none) :
    m.erase key = m :=
  List.filter_eq_self.mpr fun entry hMem => decide_eq_true (find?_eq_none_iff.mp h entry hMem)

theorem erase_cons_self (key : String) (value : α) (rest : Keyed α) :
    Keyed.erase ((key, value) :: rest) key = Keyed.erase rest key := by
  simp [erase]

theorem erase_cons_of_ne {key other : String} (h : other ≠ key) (value : α) (rest : Keyed α) :
    Keyed.erase ((other, value) :: rest) key = (other, value) :: Keyed.erase rest key := by
  simp [erase, h]

/-- A key above all others goes to the end. -/
theorem insert_of_forall_lt {m : Keyed α} {key : String} (h : ∀ entry ∈ m, entry.1 < key)
    (value : α) : m.insert key value = m ++ [(key, value)] := by
  induction m with
  | nil => rfl
  | cons first rest ih =>
    have hFirst := h first List.mem_cons_self
    rw [insert, if_neg (ne_of_lt hFirst), if_neg (lt_asymm hFirst),
      ih fun entry hEntry => h entry (List.mem_cons_of_mem _ hEntry), List.cons_append]

/-- A map whose keys increase is the map of its entries. -/
theorem Sorted.ofEntries_eq {m : Keyed α} (h : m.Sorted) : Keyed.ofEntries m = m := by
  have hAll : ∀ front : Keyed α, Sorted (front ++ m) →
      m.foldl (fun m entry => m.insert entry.1 entry.2) front = front ++ m := by
    clear h
    induction m with
    | nil => exact fun front _ => (List.append_nil front).symm
    | cons entry rest ih =>
      intro front hSorted
      have hBelow : ∀ other ∈ front, other.1 < entry.1 := fun other hOther =>
        (List.pairwise_append.mp hSorted).2.2 other hOther entry List.mem_cons_self
      rw [List.foldl_cons, insert_of_forall_lt hBelow, ih _ (by simpa using hSorted),
        List.append_assoc, List.singleton_append]
  exact hAll [] h

/-- Of entries with different keys each is found. -/
theorem Distinct.find?_ofEntries {entries : List (String × α)} (h : Distinct entries)
    (key : String) : (Keyed.ofEntries entries).find? key = find? entries key := by
  have hAll : ∀ m : Keyed α, find? (entries.foldl (fun m entry => m.insert entry.1 entry.2) m) key =
      (find? entries key).or (m.find? key) := by
    induction entries with
    | nil => exact fun m => rfl
    | cons entry rest ih =>
      intro m
      obtain ⟨hNew, hRest⟩ := List.nodup_cons.mp h
      rw [List.foldl_cons, ih hRest]
      by_cases hSame : entry.1 = key
      · have hOnly : find? rest key = none := find?_eq_none_iff.mpr fun other hOther hKey =>
          hNew (hSame ▸ hKey ▸ List.mem_map_of_mem hOther)
        simp [find?, hSame, hOnly]
      · simp [find?, hSame, find?_insert_of_ne m entry.2 (Ne.symm hSame)]
  exact (hAll []).trans (Option.or_none ..)

/-- The order of the entries makes no difference where their keys are different. -/
theorem Distinct.find?_perm {m other : Keyed α} (h : m.Distinct) (hPerm : other.Perm m)
    (key : String) : other.find? key = m.find? key := by
  have hOther : other.Distinct := (hPerm.map Prod.fst).nodup_iff.mpr h
  ext value
  rw [hOther.find?_eq_some_iff, h.find?_eq_some_iff, hPerm.mem_iff]

theorem Distinct.ofEntries_perm {entries : List (String × α)} (h : Distinct entries) :
    (Keyed.ofEntries entries).Perm entries := by
  have hSorted : (Keyed.ofEntries entries).Distinct := (Sorted.ofEntries entries).distinct
  rw [List.perm_ext_iff_of_nodup (List.Nodup.of_map _ hSorted) (List.Nodup.of_map _ h)]
  rintro ⟨key, value⟩
  rw [← hSorted.find?_eq_some_iff, h.find?_ofEntries, h.find?_eq_some_iff]

end EditorBridge.Keyed
