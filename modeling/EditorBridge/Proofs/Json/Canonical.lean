import EditorBridge.Json.Decode
import EditorBridge.Proofs.Keyed
/-!
Canonical JSON values: in every object the keys increase. Whatever is read out of a document is
canonical, and the document of a canonical value has no faults and reads back as that value.
-/
namespace EditorBridge

namespace Json

mutual

/-- In every object of the value the keys increase. -/
def Canonical : Json → Prop
  | .array items => CanonicalItems items
  | .object members => Keyed.Sorted members ∧ CanonicalMembers members
  | _ => True

def CanonicalItems : List Json → Prop
  | [] => True
  | x :: rest => Canonical x ∧ CanonicalItems rest

def CanonicalMembers : List (String × Json) → Prop
  | [] => True
  | (_, v) :: rest => Canonical v ∧ CanonicalMembers rest

end

theorem canonicalMembers_iff {members : List (String × Json)} :
    CanonicalMembers members ↔ ∀ m ∈ members, m.2.Canonical := by
  induction members with
  | nil => simp [CanonicalMembers]
  | cons m rest ih => simp [CanonicalMembers, ih]

theorem canonicalItems_iff {items : List Json} :
    CanonicalItems items ↔ ∀ v ∈ items, v.Canonical := by
  induction items with
  | nil => simp [CanonicalItems]
  | cons v rest ih => simp [CanonicalItems, ih]

/-- An object made of canonical members is canonical, in whatever order they were given. -/
theorem canonical_ofMembers {entries : List (String × Json)} (h : ∀ m ∈ entries, m.2.Canonical) :
    (Json.ofMembers entries).Canonical := by
  refine ⟨Keyed.Sorted.ofEntries entries, canonicalMembers_iff.mpr ?_⟩
  have hAll : ∀ members : Keyed Json, (∀ m ∈ members, m.2.Canonical) →
      ∀ m ∈ entries.foldl (fun all entry => Keyed.insert all entry.1 entry.2) members,
        m.2.Canonical := by
    induction entries with
    | nil => exact fun members hMembers => hMembers
    | cons entry rest ih =>
      intro members hMembers
      apply ih fun m hMem => h m (List.mem_cons_of_mem _ hMem)
      intro m hMem
      rcases Keyed.mem_insert hMem with rfl | hMem
      · exact h entry List.mem_cons_self
      · exact hMembers m hMem
  exact hAll [] (by simp)

/-- What stands under a key of a canonical value is canonical. -/
theorem Canonical.get? {value part : Json} {key : String} (h : value.Canonical)
    (hPart : value.get? key = some part) : part.Canonical := by
  cases value with
  | object members =>
    have hMem := h.1.distinct.find?_eq_some_iff.mp hPart
    exact canonicalMembers_iff.mp h.2 _ hMem
  | _ => cases hPart

end Json

namespace Document

open Json (Canonical CanonicalItems CanonicalMembers)

mutual

/-- The document of a canonical value reads back as the value. -/
theorem toJson_ofJson : ∀ value : Json, value.Canonical → (ofJson value).toJson = .ok value
  | .null, _ | .bool _, _ | .number _, _ | .string _, _ => rfl
  | .array items, h => by
    rw [ofJson, toJson, toJsonItems_ofJson items h]
    rfl
  | .object members, h => by
    rw [ofJson, toJson, toJsonMembers_ofJson members h.2]
    show Except.ok (Json.object (Keyed.ofEntries members)) = _
    rw [h.1.ofEntries_eq]

theorem toJsonItems_ofJson :
    ∀ items : List Json, CanonicalItems items → toJsonItems (ofJsonItems items) = .ok items
  | [], _ => rfl
  | x :: rest, h => by
    rw [ofJsonItems, toJsonItems, toJson_ofJson x h.1, toJsonItems_ofJson rest h.2]
    rfl

theorem toJsonMembers_ofJson : ∀ members : List (String × Json), CanonicalMembers members →
    toJsonMembers (ofJsonMembers members) = .ok members
  | [], _ => rfl
  | (k, v) :: rest, h => by
    rw [ofJsonMembers, toJsonMembers, toJson_ofJson v h.1, toJsonMembers_ofJson rest h.2]
    rfl

end

mutual

/-- The value of a document is canonical. -/
theorem canonical_of_toJson :
    ∀ (d : Document) (value : Json), d.toJson = .ok value → value.Canonical
  | .null, value, h | .bool _, value, h | .number _, value, h | .string _, value, h => by
    obtain rfl := Except.ok.inj h
    trivial
  | .array items fault, value, h => by
    rw [toJson] at h
    cases hItems : toJsonItems items with
    | error e => rw [hItems] at h; cases h
    | ok values =>
      cases fault with
      | some f => rw [hItems] at h; cases h
      | none =>
        rw [hItems] at h
        obtain rfl := Except.ok.inj h
        exact Json.canonicalItems_iff.mpr (canonical_of_toJsonItems items values hItems)
  | .object members fault, value, h => by
    rw [toJson] at h
    cases hMembers : toJsonMembers members with
    | error e => rw [hMembers] at h; cases h
    | ok values =>
      cases fault with
      | some f => rw [hMembers] at h; cases h
      | none =>
        rw [hMembers] at h
        obtain rfl := Except.ok.inj h
        exact Json.canonical_ofMembers (canonical_of_toJsonMembers members values hMembers)
  | .unreadable _, _, h => by cases h
  | .broken _, _, h => by cases h

theorem canonical_of_toJsonItems : ∀ (items : List Document) (values : List Json),
    toJsonItems items = .ok values → ∀ v ∈ values, v.Canonical
  | [], values, h => by
    obtain rfl := Except.ok.inj h
    simp
  | x :: rest, values, h => by
    rw [toJsonItems] at h
    cases hFirst : toJson x with
    | error e => rw [hFirst] at h; cases h
    | ok v =>
      cases hRest : toJsonItems rest with
      | error e => rw [hFirst, hRest] at h; cases h
      | ok vs =>
        rw [hFirst, hRest] at h
        obtain rfl := Except.ok.inj h
        intro w hMem
        rcases List.mem_cons.mp hMem with rfl | hMem
        · exact canonical_of_toJson x _ hFirst
        · exact canonical_of_toJsonItems rest vs hRest w hMem

theorem canonical_of_toJsonMembers : ∀ (members : List (Document × Document))
    (values : List (String × Json)), toJsonMembers members = .ok values →
      ∀ m ∈ values, m.2.Canonical
  | [], values, h => by
    obtain rfl := Except.ok.inj h
    simp
  | (key, x) :: rest, values, h => by
    cases key with
    | string k =>
      rw [toJsonMembers] at h
      cases hFirst : toJson x with
      | error e => rw [hFirst] at h; cases h
      | ok v =>
        cases hRest : toJsonMembers rest with
        | error e => rw [hFirst, hRest] at h; cases h
        | ok vs =>
          rw [hFirst, hRest] at h
          obtain rfl := Except.ok.inj h
          intro m hMem
          rcases List.mem_cons.mp hMem with rfl | hMem
          · exact canonical_of_toJson x _ hFirst
          · exact canonical_of_toJsonMembers rest vs hRest m hMem
    | _ => cases h

end

theorem readAny_ofJson {value : Json} (h : value.Canonical) :
    (ofJson value).readAny = .ok value := by
  rw [readAny, toJson_ofJson value h]

mutual

/-- A value has a document that can be passed over. -/
theorem skipFault_ofJson : ∀ value : Json, (ofJson value).skipFault = none
  | .null | .bool _ | .number _ | .string _ => rfl
  | .array items => by simp [ofJson, skipFault, skipFaultItems_ofJson items]
  | .object members => by simp [ofJson, skipFault, skipFaultMembers_ofJson members]

theorem skipFaultItems_ofJson : ∀ items : List Json, skipFaultItems (ofJsonItems items) = none
  | [] => rfl
  | x :: rest => by
    simp [ofJsonItems, skipFaultItems, skipFault_ofJson x, skipFaultItems_ofJson rest]

theorem skipFaultMembers_ofJson :
    ∀ members : List (String × Json), skipFaultMembers (ofJsonMembers members) = none
  | [] => rfl
  | (k, v) :: rest => by
    simp [ofJsonMembers, skipFaultMembers, skipKeyFault, skipFault_ofJson v,
      skipFaultMembers_ofJson rest]

end

end Document

namespace Json

theorem present_keys (entries : List (String × Option Json)) :
    ((present entries).map Prod.fst).Sublist (entries.map Prod.fst) := by
  induction entries with
  | nil => exact List.Sublist.refl _
  | cons entry rest ih =>
    obtain ⟨key, member⟩ := entry
    cases member with
    | none => exact ih.cons key
    | some v => exact ih.cons_cons key

theorem find?_present {entries : Keyed (Option Json)} (h : entries.Distinct) (key : String) :
    Keyed.find? (present entries) key = (Keyed.find? entries key).join := by
  induction entries with
  | nil => rfl
  | cons entry rest ih =>
    obtain ⟨name, member⟩ := entry
    obtain ⟨hNew, hRest⟩ := List.nodup_cons.mp h
    have hTail := ih hRest
    by_cases hSame : name = key
    · subst hSame
      have hOnly : Keyed.find? (present rest) name = none :=
        Keyed.find?_eq_none_iff.mpr fun entry hEntry hKey =>
          hNew ((present_keys rest).subset (List.mem_map.mpr ⟨entry, hEntry, hKey⟩))
      cases member with
      | none => simpa [present, Keyed.find?] using hOnly
      | some v => simp [present, Keyed.find?]
    · cases member with
      | none => simpa [present, Keyed.find?, hSame] using hTail
      | some v => simpa [present, Keyed.find?, hSame] using hTail

/-- A member is in the object exactly when it was given. -/
theorem get?_ofPresent {entries : Keyed (Option Json)} (h : entries.Distinct) (key : String) :
    (ofMembers (present entries)).get? key = (Keyed.find? entries key).join := by
  have hDistinct : Keyed.Distinct (present entries) := List.Nodup.sublist (present_keys entries) h
  exact (hDistinct.find?_ofEntries key).trans (find?_present h key)

theorem canonical_present {entries : List (String × Option Json)}
    (h : ∀ entry ∈ entries, ∀ v ∈ entry.2, v.Canonical) :
    ∀ m ∈ present entries, m.2.Canonical := by
  intro m hMem
  obtain ⟨entry, hEntry, hSome⟩ := List.mem_filterMap.mp hMem
  obtain ⟨v, hValue, rfl⟩ := Option.map_eq_some_iff.mp hSome
  exact h entry hEntry v hValue

end Json

namespace Decoded

variable {α β : Type}

@[simp] theorem toOption_ok (a : α) : (Except.ok a : Decoded α).toOption = some a := rfl

@[simp] theorem toOption_bind (x : Decoded α) (f : α → Decoded β) :
    (x >>= f).toOption = x.toOption.bind fun a => (f a).toOption := by
  cases x <;> rfl

@[simp] theorem toOption_map (f : α → β) (x : Decoded α) :
    (f <$> x).toOption = x.toOption.map f := by
  cases x <;> rfl

theorem map_eq_ok_iff {f : α → β} {x : Decoded α} {b : β} :
    f <$> x = .ok b ↔ ∃ a, x = .ok a ∧ f a = b := by
  cases x <;> simp [Functor.map, Except.map]

theorem toOption_eq_some_iff {x : Decoded α} {a : α} : x.toOption = some a ↔ x = .ok a := by
  cases x <;> simp [Except.toOption]

end Decoded

namespace Json

/-- What a member that may be left out can hold: nothing, or a canonical value that is not null. -/
def Definite (member : Option Json) : Prop := ∀ v ∈ member, v.Canonical ∧ v ≠ .null

theorem string?_eq_some_iff {value : Json} {s : String} :
    value.string? = some s ↔ value = .string s := by
  cases value <;> simp [string?]

theorem eq_of_nonNull? {value part : Json} (h : value.nonNull? = some part) : value = part := by
  cases value <;> cases h <;> rfl

theorem nonNull?_of_ne {value : Json} (h : value ≠ .null) : value.nonNull? = some value := by
  cases value <;> first | rfl | exact absurd rfl h

end Json

namespace Document

theorem readText_ofJson (value : Json) : (ofJson value).readText.toOption = value.string? := by
  cases value <;> rfl

theorem readText_string (s : String) : readText (ofJson (.string s)) = .ok s := rfl

theorem readBool_bool (b : Bool) : readBool (ofJson (.bool b)) = .ok b := rfl

theorem readInt32_ofJson {i : Int} (h : -Int.pow 2 31 ≤ i ∧ i ≤ Int.pow 2 31 - 1) :
    readInt32 (ofJson (.int i)) = .ok i :=
  if_pos h

theorem readInt64_ofJson {i : Int} (h : -Int.pow 2 63 ≤ i ∧ i ≤ Int.pow 2 63 - 1) :
    readInt64 (ofJson (.int i)) = .ok i :=
  if_pos h

theorem readOptional_ofJson {α : Type} (read : Document → Decoded α) (value : Json) :
    readOptional read (ofJson value) =
      match value.nonNull? with
      | none => .ok none
      | some value => some <$> read (ofJson value) := by
  cases value <;> rfl

theorem readOptional_of_ok {α : Type} {read : Document → Decoded α} {value : Json} {a : α}
    (h : value ≠ .null) (hRead : read (ofJson value) = .ok a) :
    readOptional read (ofJson value) = .ok (some a) := by
  rw [readOptional_ofJson, Json.nonNull?_of_ne h]
  simp only [hRead]
  rfl

theorem readOptional_any {value : Json} (h : value.Canonical) :
    readOptional readAny (ofJson value) = .ok value.nonNull? := by
  cases value with
  | null => rfl
  | _ => exact readOptional_of_ok (by simp) (readAny_ofJson h)

end Document

/-- What is written of a member that may be left out is nothing where there is none, and else reads
back as the member. -/
def Document.Gives {α : Type} (read : Document → Decoded α) : Option Json → Option α → Prop
  | none, none => True
  | some value, some a => readOptional read (ofJson value) = .ok (some a)
  | _, _ => False

theorem Json.Definite.gives {member : Option Json} (h : Json.Definite member) :
    Document.Gives Document.readAny member member := by
  cases member with
  | none => trivial
  | some v => exact Document.readOptional_of_ok (h v rfl).2 (Document.readAny_ofJson (h v rfl).1)

theorem Json.canonical_of_parse {text : String} {value : Json} (h : Json.parse text = .ok value) :
    value.Canonical := by
  unfold Json.parse at h
  split at h
  rename_i d trailing hText
  cases hValue : d.toJson with
  | error e => rw [hValue] at h; cases h
  | ok v =>
    rw [hValue] at h
    cases trailing with
    | true => cases h
    | false =>
      obtain rfl := Except.ok.inj h
      exact Document.canonical_of_toJson d _ hValue

end EditorBridge
