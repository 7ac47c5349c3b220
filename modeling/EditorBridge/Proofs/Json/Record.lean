import EditorBridge.Proofs.Json.Canonical
import Mathlib.Data.List.Pairwise
import Mathlib.Data.List.Perm.Basic
/-!
Reading a record from an object. The members are read in the order of the object and not in that of
the fields; where the fields are independent of each other this makes no difference. So a record is
read from an object exactly when no required field is missing and reading the fields one after the
other, each from its own member, succeeds, and this gives the record.
-/
namespace EditorBridge

variable {σ : Type}

namespace RecordField

/-- Two fields whose values go to different places: either may be read first. -/
def Commutes (f g : RecordField σ) : Prop :=
  ∀ acc d e, ((f.read acc d).toOption.bind fun acc => (g.read acc e).toOption) =
    (g.read acc e).toOption.bind fun acc => (f.read acc d).toOption

instance : Std.Symm (Commutes (σ := σ)) where
  symm _ _ h := fun acc d e => (h acc e d).symm

/-- Fields that store what they read commute if it does not matter which of them stores first. Of
the fields of a record with different names, each stores into a component of its own. -/
@[simp] theorem commutes_of_stores {α β : Type} {name name' : String} {p p' : Presence}
    {readF : Document → Decoded α} {readG : Document → Decoded β} {setF : σ → α → σ}
    {setG : σ → β → σ} (hApart : ∀ acc a b, setG (setF acc a) b = setF (setG acc b) a) :
    Commutes ⟨name, p, fun acc d => setF acc <$> readF d⟩
      ⟨name', p', fun acc d => setG acc <$> readG d⟩ := by
  intro acc d e
  cases hd : readF d <;> cases he : readG e <;>
    simp [hd, he, hApart, Functor.map, Except.map, Except.toOption]

/-- Reads a field from a value, unless reading has failed before. -/
def take (acc : Option σ) (part : RecordField σ × Json) : Option σ :=
  acc.bind fun acc => (part.1.read acc (Document.ofJson part.2)).toOption

theorem Commutes.take {f g : RecordField σ} (h : f.Commutes g) (acc : Option σ) (v w : Json) :
    RecordField.take (RecordField.take acc (f, v)) (g, w) =
      RecordField.take (RecordField.take acc (g, w)) (f, v) := by
  cases acc with
  | none => rfl
  | some acc => exact h acc (Document.ofJson v) (Document.ofJson w)

end RecordField

namespace RecordShape

variable {shape : RecordShape σ} {fields : List (RecordField σ)} {members : Keyed Json}

/-- Fields with different names that may be read in any order. -/
def Independent (fields : List (RecordField σ)) : Prop :=
  fields.Pairwise fun f g => f.name ≠ g.name ∧ f.Commutes g

/-- The members that are fields, in the order of the object. -/
def known (fields : List (RecordField σ)) (members : Keyed Json) : List (RecordField σ × Json) :=
  members.filterMap fun m => (fields.find? (·.name == m.1)).map (·, m.2)

/-- The fields that are members, in the order of their declaration. -/
def given (fields : List (RecordField σ)) (members : Keyed Json) : List (RecordField σ × Json) :=
  fields.filterMap fun f => (members.find? f.name).map (f, ·)

/-- Reads the fields in the order of their declaration, each from its own member. -/
def collect (member? : String → Option Json) : List (RecordField σ) → σ → Option σ
  | [], acc => some acc
  | f :: rest, acc =>
    match member? f.name with
    | none => collect member? rest acc
    | some v => (f.read acc (Document.ofJson v)).toOption.bind (collect member? rest)

@[simp] theorem independent_nil : Independent ([] : List (RecordField σ)) := List.Pairwise.nil

@[simp] theorem independent_cons {f : RecordField σ} : Independent (f :: fields) ↔
    (∀ g ∈ fields, f.name ≠ g.name ∧ f.Commutes g) ∧ Independent fields :=
  List.pairwise_cons

theorem Independent.eq_of_name (h : Independent fields) {f g : RecordField σ} (hf : f ∈ fields)
    (hg : g ∈ fields) (hName : f.name = g.name) : f = g := by
  induction fields with
  | nil => cases hf
  | cons first rest ih =>
    obtain ⟨hFirst, hRest⟩ := List.pairwise_cons.mp h
    rcases List.mem_cons.mp hf with rfl | hLaterF
    · rcases List.mem_cons.mp hg with rfl | hLaterG
      · rfl
      · exact absurd hName (hFirst g hLaterG).1
    · rcases List.mem_cons.mp hg with rfl | hLaterG
      · exact absurd hName.symm (hFirst f hLaterF).1
      · exact ih hRest hLaterF hLaterG

theorem Independent.commutes (h : Independent fields) {f g : RecordField σ} (hf : f ∈ fields)
    (hg : g ∈ fields) (hNe : f ≠ g) : f.Commutes g :=
  (h.imp And.right).forall hf hg hNe

theorem Independent.find?_eq_some_iff (h : Independent fields) {f : RecordField σ} {key : String} :
    fields.find? (·.name == key) = some f ↔ f ∈ fields ∧ f.name = key := by
  constructor
  · intro hFound
    exact ⟨List.mem_of_find?_eq_some hFound, by simpa using List.find?_some hFound⟩
  · rintro ⟨hMem, rfl⟩
    cases hFound : fields.find? (·.name == f.name) with
    | none => exact absurd (List.find?_eq_none.mp hFound f hMem) (by simp)
    | some g =>
      have hName : g.name = f.name := by simpa using List.find?_some hFound
      rw [h.eq_of_name (List.mem_of_find?_eq_some hFound) hMem hName]

theorem mem_known_iff (h : Independent fields) {f : RecordField σ} {v : Json} :
    (f, v) ∈ known fields members ↔ f ∈ fields ∧ (f.name, v) ∈ members := by
  simp only [known, List.mem_filterMap, Option.map_eq_some_iff, Prod.mk.injEq]
  constructor
  · rintro ⟨⟨key, w⟩, hMem, g, hFound, rfl, rfl⟩
    obtain ⟨hField, rfl⟩ := h.find?_eq_some_iff.mp hFound
    exact ⟨hField, hMem⟩
  · rintro ⟨hField, hMem⟩
    exact ⟨_, hMem, f, h.find?_eq_some_iff.mpr ⟨hField, rfl⟩, rfl, rfl⟩

theorem mem_given_iff (hKeys : members.Distinct) {f : RecordField σ} {v : Json} :
    (f, v) ∈ given fields members ↔ f ∈ fields ∧ (f.name, v) ∈ members := by
  simp only [given, List.mem_filterMap, Option.map_eq_some_iff, Prod.mk.injEq]
  constructor
  · rintro ⟨g, hField, w, hFound, rfl, rfl⟩
    exact ⟨hField, hKeys.find?_eq_some_iff.mp hFound⟩
  · rintro ⟨hField, hMem⟩
    exact ⟨f, hField, v, hKeys.find?_eq_some_iff.mpr hMem, rfl, rfl⟩

/-- The names of the members that are fields are among their keys, in the same order. -/
theorem known_names (h : Independent fields) :
    ((known fields members).map (·.1.name)).Sublist (members.map Prod.fst) := by
  induction members with
  | nil => exact List.Sublist.refl _
  | cons m rest ih =>
    cases hFound : fields.find? (·.name == m.1) with
    | none => simpa [known, hFound] using ih.cons m.1
    | some f =>
      obtain ⟨-, hName⟩ := h.find?_eq_some_iff.mp hFound
      simpa [known, hFound, hName] using ih.cons_cons m.1

theorem known_perm_given (h : Independent fields) (hKeys : members.Distinct) :
    (known fields members).Perm (given fields members) := by
  have hKnown : (known fields members).Nodup := by
    apply List.Nodup.of_map (·.1.name)
    exact List.Nodup.sublist (known_names h) hKeys
  have hGiven : (given fields members).Nodup := by
    apply List.Nodup.of_map Prod.fst
    have hSub : ((given fields members).map Prod.fst).Sublist fields := by
      clear h hKeys hKnown
      induction fields with
      | nil => exact List.Sublist.refl _
      | cons f rest ih =>
        cases hFound : members.find? f.name with
        | none => simpa [given, hFound] using ih.cons f
        | some v => simpa [given, hFound] using ih.cons_cons f
    refine List.Nodup.sublist hSub (h.imp ?_)
    rintro f g ⟨hName, -⟩ rfl
    exact hName rfl
  rw [List.perm_ext_iff_of_nodup hKnown hGiven]
  rintro ⟨f, v⟩
  rw [mem_known_iff h, mem_given_iff hKeys]

theorem foldl_take_none (parts : List (RecordField σ × Json)) :
    parts.foldl RecordField.take none = none := by
  induction parts with
  | nil => rfl
  | cons part rest ih => exact ih

theorem collect_eq (members : Keyed Json) (fields : List (RecordField σ)) (acc : σ) :
    collect members.find? fields acc =
      (given fields members).foldl RecordField.take (some acc) := by
  induction fields generalizing acc with
  | nil => rfl
  | cons f rest ih =>
    cases hFound : members.find? f.name with
    | none => simpa [collect, given, hFound] using ih acc
    | some v =>
      simp only [collect, given, hFound, List.filterMap_cons, Option.map_some, List.foldl_cons]
      cases hRead : (f.read acc (Document.ofJson v)).toOption with
      | none =>
        simp only [RecordField.take, Option.bind_some, hRead, Option.bind_none]
        exact (foldl_take_none _).symm
      | some next =>
        simp only [RecordField.take, Option.bind_some, hRead]
        exact ih next

section

variable {α : Type} {member? : String → Option Json} {name : String} {presence : Presence}
  {read : Document → Decoded α} {rest : List (RecordField σ)} {acc : σ}

/-- A field whose member is there is put in its place. -/
theorem collect_of_written {set : σ → α → σ} {value : Json} {a : α}
    (hWritten : member? name = some value) (h : read (Document.ofJson value) = .ok a) :
    collect member? (⟨name, presence, fun acc d => do return set acc (← read d)⟩ :: rest) acc =
      collect member? rest (set acc a) := by
  rw [collect]
  simp only [hWritten, h]
  rfl

/-- A field whose member may be left out is put in its place, where there was none before. -/
theorem collect_of_gives {set : σ → Option α → σ} {member : Option α} (hNone : set acc none = acc)
    (h : Document.Gives read (member? name) member) :
    collect member?
        (⟨name, presence, fun acc d => do return set acc (← d.readOptional read)⟩ :: rest) acc =
      collect member? rest (set acc member) := by
  cases hWritten : member? name with
  | none =>
    rw [hWritten] at h
    cases member with
    | none =>
      rw [collect]
      simp only [hWritten, hNone]
    | some a => exact h.elim
  | some value =>
    rw [hWritten] at h
    cases member with
    | none => exact h.elim
    | some a => exact collect_of_written hWritten h

end

/-- Members with different keys are read in their order, and the unknown ones are passed over. -/
theorem readMembers_ofJson (h : Independent fields) (hKeys : members.Distinct) (acc : σ)
    (seen : List String) (hNew : ∀ m ∈ members, m.1 ∉ seen) :
    (readMembers fields acc seen (Document.ofJsonMembers members)).toOption =
      ((known fields members).foldl RecordField.take (some acc)).map
        (·, ((known fields members).map (·.1.name)).reverse ++ seen) := by
  induction members generalizing acc seen with
  | nil => rfl
  | cons m rest ih =>
    obtain ⟨key, v⟩ := m
    obtain ⟨hFirst, hRest⟩ := List.nodup_cons.mp hKeys
    have hLater : ∀ m ∈ rest, m.1 ∉ seen := fun m hMem => hNew m (List.mem_cons_of_mem _ hMem)
    cases hFound : fields.find? (·.name == key) with
    | none =>
      simpa [Document.ofJsonMembers, readMembers, known, hFound, Document.skipFault_ofJson]
        using ih hRest acc seen hLater
    | some f =>
      obtain ⟨-, hName⟩ := h.find?_eq_some_iff.mp hFound
      have hUnseen : seen.contains key = false := by
        simpa using hNew (key, v) List.mem_cons_self
      simp only [Document.ofJsonMembers, readMembers, hFound, hUnseen, known, List.filterMap_cons,
        Option.map_some, List.foldl_cons, List.map_cons, List.reverse_cons, hName]
      cases hRead : f.read acc (Document.ofJson v) with
      | error e =>
        have hNone : RecordField.take (some acc) (f, v) = none := by
          simp [RecordField.take, hRead, Except.toOption]
        rw [hNone, foldl_take_none]
        rfl
      | ok next =>
        have hSome : RecordField.take (some acc) (f, v) = some next := by
          simp [RecordField.take, hRead, Except.toOption]
        have hNext : ∀ m ∈ rest, m.1 ∉ key :: seen := by
          intro m hMem hSeen
          rcases List.mem_cons.mp hSeen with rfl | hSeen
          · exact hFirst (List.mem_map.mpr ⟨m, hMem, rfl⟩)
          · exact hLater m hMem hSeen
        rw [hSome]
        show (readMembers fields next (key :: seen) (Document.ofJsonMembers rest)).toOption = _
        simpa [known, List.append_assoc] using ih hRest next (key :: seen) hNext

/-- What it takes to read a record from an object. -/
theorem read_object_iff (h : Independent shape.fields) (hKeys : members.Distinct)
    {origin : Origin} {start result : σ} :
    shape.read origin start (Document.ofJson (.object members)) = .ok result ↔
      (∀ f ∈ shape.fields, f.presence = .required → members.has f.name = true) ∧
        collect members.find? shape.fields start = some result := by
  have hPerm := known_perm_given h hKeys
  have hFold : (known shape.fields members).foldl RecordField.take (some start) =
      collect members.find? shape.fields start := by
    rw [collect_eq]
    apply hPerm.foldl_eq'
    rintro ⟨f, v⟩ hf ⟨g, w⟩ hg acc
    by_cases hSame : f = g
    · subst hSame
      have hValue := (mem_known_iff h).mp hf
      have hValue' := (mem_known_iff h).mp hg
      have hEq := hKeys.find?_eq_some_iff.mpr hValue.2
      rw [hKeys.find?_eq_some_iff.mpr hValue'.2] at hEq
      cases hEq
      rfl
    · exact (h.commutes ((mem_known_iff h).mp hf).1 ((mem_known_iff h).mp hg).1 hSame).take acc v w
  -- A field was seen when it is one of the members.
  have hSeen : ∀ f ∈ shape.fields,
      f.name ∈ (known shape.fields members).map (·.1.name) ↔ members.has f.name = true := by
    intro f hField
    simp only [List.mem_map, Prod.exists, Keyed.has, Option.isSome_iff_exists]
    constructor
    · rintro ⟨g, v, hMem, hName⟩
      obtain ⟨-, hMember⟩ := (mem_known_iff h).mp hMem
      exact ⟨v, hKeys.find?_eq_some_iff.mpr (hName ▸ hMember)⟩
    · rintro ⟨v, hFound⟩
      exact ⟨f, v, (mem_known_iff h).mpr ⟨hField, hKeys.find?_eq_some_iff.mp hFound⟩, rfl⟩
  have hRead := readMembers_ofJson h hKeys start [] (by simp)
  rw [hFold, List.append_nil] at hRead
  rw [Document.ofJson, RecordShape.read]
  cases hCollect : collect members.find? shape.fields start with
  | none =>
    rw [hCollect] at hRead
    cases hMembers : readMembers shape.fields start [] (Document.ofJsonMembers members) with
    | error e => simp [bind, Except.bind]
    | ok read => rw [hMembers] at hRead; cases hRead
  | some value =>
    rw [hCollect] at hRead
    rw [Decoded.toOption_eq_some_iff.mp hRead]
    simp only [bind, Except.bind]
    split
    · rename_i f hMissing
      have hField := List.mem_of_find?_eq_some hMissing
      have hLacks : f.presence = .required ∧ ¬ members.has f.name = true := by
        have hLacking := List.find?_some hMissing
        rw [← hSeen f hField]
        simpa using hLacking
      simp only [reduceCtorEq, false_iff, not_and]
      exact fun hAll => absurd (hAll f hField hLacks.1) hLacks.2
    · rename_i hNone
      have hAll : ∀ f ∈ shape.fields, f.presence = .required → members.has f.name = true := by
        intro f hField hRequired
        rw [← hSeen f hField]
        simpa [hRequired] using List.find?_eq_none.mp hNone f hField
      rw [Except.ok.injEq, Option.some.injEq]
      exact ⟨fun hValue => ⟨hAll, hValue⟩, And.right⟩

/-- What it takes to read a record from the members that were not left out, in any order. -/
theorem read_present_iff (h : Independent shape.fields) {entries : Keyed (Option Json)}
    (hKeys : entries.Distinct) (hMembers : members.Perm (Json.present entries)) {origin : Origin}
    {start result : σ} :
    shape.read origin start (Document.ofJson (.object members)) = .ok result ↔
      (∀ f ∈ shape.fields, f.presence = .required → (entries.find? f.name).join.isSome = true) ∧
        collect (fun key => (entries.find? key).join) shape.fields start = some result := by
  have hPresent : Keyed.Distinct (Json.present entries) :=
    List.Nodup.sublist (Json.present_keys entries) hKeys
  have hFound : members.find? = fun key => (entries.find? key).join := funext fun key =>
    (hPresent.find?_perm hMembers key).trans (Json.find?_present hKeys key)
  have hDistinct : members.Distinct := (hMembers.map Prod.fst).nodup_iff.mpr hPresent
  rw [read_object_iff h hDistinct, hFound]
  simp only [Keyed.has, hFound]

theorem read_ofPresent_iff (h : Independent shape.fields) {entries : Keyed (Option Json)}
    (hKeys : entries.Distinct) {origin : Origin} {start result : σ} :
    shape.read origin start (Document.ofJson (Json.ofMembers (Json.present entries))) =
        .ok result ↔
      (∀ f ∈ shape.fields, f.presence = .required → (entries.find? f.name).join.isSome = true) ∧
        collect (fun key => (entries.find? key).join) shape.fields start = some result :=
  read_present_iff h hKeys
    (Keyed.Distinct.ofEntries_perm (List.Nodup.sublist (Json.present_keys entries) hKeys))

end RecordShape
end EditorBridge
