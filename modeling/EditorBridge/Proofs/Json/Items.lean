import EditorBridge.Proofs.Json.Record
/-!
Reading a record from an array. The items are read in the order of the fields, each by the field in
its place, so an array holds at least the fields that have to be there and at most all of them.
-/
namespace EditorBridge

theorem Decoded.bind_eq_ok_iff {α β : Type} {x : Decoded α} {f : α → Decoded β} {b : β} :
    x >>= f = .ok b ↔ ∃ a, x = .ok a ∧ f a = .ok b := by
  cases x with
  | error fault => simp [bind, Except.bind]
  | ok a => simp [bind, Except.bind]

namespace RecordShape

variable {σ : Type} {shape : RecordShape σ} {fields : List (RecordField σ)} {field : RecordField σ}
  {acc : σ} {d : Document} {items : List Document} {n : Nat} {out : σ × List Document}

theorem readItems_cons (h : readItems shape n none (field :: fields) acc (d :: items) = .ok out) :
    ∃ acc', field.read acc d = .ok acc' ∧
      readItems shape (n + 1) none fields acc' items = .ok out := by
  rw [readItems] at h
  exact Decoded.bind_eq_ok_iff.mp h

/-- An array holds at least the fields that have to be there. -/
theorem readItems_nil_ne (hField : field.presence ≠ .free) :
    readItems shape n none (field :: fields) acc [] ≠ .ok out := by
  rw [readItems, if_neg hField]
  simp

/-- What no field writes is kept, and each field takes one item at most. -/
theorem readItems_keeps {α : Type} (part : σ → α)
    (hFields : ∀ field ∈ fields, ∀ acc d acc', field.read acc d = .ok acc' → part acc' = part acc)
    (h : readItems shape n none fields acc items = .ok out) :
    part out.1 = part acc ∧ items.length ≤ out.2.length + fields.length := by
  induction fields generalizing n acc items with
  | nil =>
    obtain rfl := Except.ok.inj h
    exact ⟨rfl, Nat.le_refl _⟩
  | cons field fields ih =>
    obtain ⟨hField, hFields⟩ := List.forall_mem_cons.mp hFields
    cases items with
    | nil =>
      by_cases hFree : field.presence = .free
      · rw [readItems, if_pos hFree] at h
        exact ⟨(ih hFields h).1, Nat.zero_le _⟩
      · exact absurd h (readItems_nil_ne hFree)
    | cons d items =>
      obtain ⟨acc', hRead, hRest⟩ := readItems_cons h
      obtain ⟨hPart, hLength⟩ := ih hFields hRest
      exact ⟨hPart.trans (hField _ _ _ hRead), by simp only [List.length_cons]; omega⟩

end RecordShape

namespace Document

theorem length_ofJsonItems (items : List Json) :
    (ofJsonItems items).length = items.length := by
  induction items with
  | nil => rfl
  | cons x items ih => simp only [ofJsonItems, List.length_cons, ih]

/-- Only a number is read as that number. -/
theorem eq_nat_of_readAny {value read : Json} {id : Nat}
    (hRead : (ofJson value).readAny = .ok read) (hId : read.nat? = some id) :
    value = .nat id := by
  have hToJson : (ofJson value).toJson = .ok read := by
    unfold readAny at hRead
    split at hRead
    · rename_i hToJson
      rwa [Except.ok.inj hRead] at hToJson
    · cases hRead
  have hNumber : ∀ v : Json, v.nat? = some id → v = .nat id := by
    intro v hSome
    unfold Json.nat? at hSome
    split at hSome
    · obtain rfl := Option.some.inj hSome
      rfl
    · cases hSome
  cases value with
  | null | bool | number | string =>
    obtain rfl := Except.ok.inj hToJson
    exact hNumber _ hId
  | array | object =>
    simp only [ofJson, toJson, bind, Except.bind] at hToJson
    split at hToJson
    · cases hToJson
    · obtain rfl := Except.ok.inj hToJson
      cases hId

end Document
end EditorBridge
