import EditorBridge.Proofs.Json.Record
import EditorBridge.Session.Traffic
/-!
What a session answers to the requests of its server. Every answer carries the identity of its
request, and a request for settings that has the form of the protocol is answered item by item.
-/
namespace EditorBridge.Session

/-- An item of a request for settings, in the form of the protocol: an object that may name a
section, and that may name a scope by its URI. -/
def Asks (item : Json) (section? : Option String) : Prop :=
  (∃ members, item = .object members) ∧
    (item.get? "section").bind Json.nonNull? = section?.map Json.string ∧
    ∀ scope, (item.get? "scopeUri").bind Json.nonNull? = some scope →
      ∃ uri, scope = .string uri ∧ Uri.checkReference uri = .ok ()

/-- A request for the settings of these sections, and of everything where there is no section. -/
structure AsksFor (r : Rpc.Request) (sections : List (Option String)) : Prop where
  method : r.method = settingsMethod
  items : ∃ params items, r.params = some params ∧ params.get? "items" = some (.array items) ∧
    List.Forall₂ Asks items sections

/-- What stands in a settings tree for a section, or for everything. -/
def settingOf (tree : Json) : Option String → Json
  | some name => Settings.lookup tree name
  | none => tree

theorem answer_id (tree : Json) (r : Rpc.Request) : (answer tree r).id = r.id := by
  unfold answer
  split
  · split <;> rfl
  · split <;> rfl

theorem answer_jsonrpc (tree : Json) (r : Rpc.Request) : (answer tree r).jsonrpc = "2.0" := by
  unfold answer
  split
  · split <;> rfl
  · split <;> rfl

namespace SettingsItem

theorem independent : RecordShape.Independent shape.fields := by
  simp [shape]

/-- A scope that is a URI is passed over. -/
theorem readScope {value : Json} (h : ∀ scope, value.nonNull? = some scope →
    ∃ uri, scope = .string uri ∧ Uri.checkReference uri = .ok ()) :
    ∃ scope, (Document.ofJson value).readOptional readReference = .ok scope := by
  rw [Document.readOptional_ofJson]
  cases hValue : value.nonNull? with
  | none => exact ⟨none, rfl⟩
  | some scope =>
    obtain ⟨uri, rfl, hUri⟩ := h scope hValue
    refine ⟨some uri, ?_⟩
    simp only [Document.ofJson, readReference, Document.readText, bind, Except.bind, hUri]
    rfl

theorem readSection {value : Json} {name : Option String}
    (h : value.nonNull? = name.map Json.string) :
    (Document.ofJson value).readOptional Document.readText = .ok name := by
  rw [Document.readOptional_ofJson, h]
  cases name <;> rfl

theorem read_of_asks {item : Json} {section? : Option String} (hCanonical : item.Canonical)
    (h : Asks item section?) : shape.read .tree ⟨none⟩ (Document.ofJson item) = .ok ⟨section?⟩ := by
  obtain ⟨⟨members, rfl⟩, hSection, hScope⟩ := h
  rw [RecordShape.read_object_iff independent hCanonical.1.distinct]
  simp only [Json.get?] at hSection hScope
  constructor
  · simp [shape]
  · -- The section is read after the scope, of which nothing is kept.
    have hLast : RecordShape.collect (Keyed.find? members) (shape.fields.drop 1) ⟨none⟩ =
        some ⟨section?⟩ := by
      cases hFound : Keyed.find? members "section" with
      | none =>
        rw [hFound] at hSection
        cases section? with
        | none => simp [shape, RecordShape.collect, hFound]
        | some name => cases hSection
      | some value =>
        rw [hFound] at hSection
        simp [shape, RecordShape.collect, hFound, readSection hSection]
    cases hFound : Keyed.find? members "scopeUri" with
    | none => simpa [shape, RecordShape.collect, hFound] using hLast
    | some value =>
      rw [hFound] at hScope
      obtain ⟨scope, hRead⟩ := readScope hScope
      have hPassed : discard (Except.ok scope : Decoded (Option String)) = .ok () := rfl
      simpa [shape, RecordShape.collect, hFound, hRead, hPassed] using hLast

end SettingsItem

theorem readEach_of_asks {items : List Json} {sections : List (Option String)}
    (hCanonical : ∀ item ∈ items, item.Canonical) (h : List.Forall₂ Asks items sections) :
    Document.readEach (SettingsItem.shape.read .tree ⟨none⟩) (Document.ofJsonItems items) =
      .ok (sections.map (⟨·⟩)) := by
  induction h with
  | nil => rfl
  | cons hFirst hRest ih =>
    rw [Document.ofJsonItems, Document.readEach,
      SettingsItem.read_of_asks (hCanonical _ List.mem_cons_self) hFirst,
      ih fun item hMem => hCanonical item (List.mem_cons_of_mem _ hMem)]
    rfl

theorem SettingsRequest.independent : RecordShape.Independent shape.fields := by
  simp [shape]

theorem SettingsRequest.read_of_asks {params : Json} {items : List Json}
    {sections : List (Option String)} (hCanonical : params.Canonical)
    (hItems : params.get? "items" = some (.array items)) (h : List.Forall₂ Asks items sections) :
    read (Document.ofJson params) = .ok ⟨sections.map (⟨·⟩)⟩ := by
  cases params with
  | object members =>
    have hEach : ∀ item ∈ items, item.Canonical :=
      Json.canonicalItems_iff.mp (hCanonical.get? hItems)
    have hRead : (Document.ofJson (.array items)).readList (SettingsItem.shape.read .tree ⟨none⟩) =
        .ok (sections.map (⟨·⟩)) := by
      rw [Document.ofJson, Document.readList, readEach_of_asks hEach h]
      rfl
    simp only [Json.get?] at hItems
    apply (RecordShape.read_object_iff independent hCanonical.1.distinct).mpr
    simp [shape, Keyed.has, RecordShape.collect, hItems, hRead]
  | _ => cases hItems

/-- A request for settings gets an array with one entry for each item, in their order. -/
theorem answer_of_asksFor {tree : Json} {r : Rpc.Request} {sections : List (Option String)}
    (hCanonical : ∀ params ∈ r.params, params.Canonical) (h : AsksFor r sections) :
    answer tree r = .success r.id (.array (sections.map (settingOf tree))) := by
  obtain ⟨params, items, hParams, hItems, hAsks⟩ := h.items
  have hRead : SettingsRequest.read (Document.ofJson (r.params.getD .null)) =
      .ok ⟨sections.map (⟨·⟩)⟩ := by
    rw [hParams]
    exact SettingsRequest.read_of_asks (hCanonical params hParams) hItems hAsks
  rw [answer, if_pos h.method, hRead]
  simp only [List.map_map]
  rfl

end EditorBridge.Session
