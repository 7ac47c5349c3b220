import EditorBridge.Proofs.Json.Record
import EditorBridge.Rpc.Message
/-!
The messages of JSON-RPC as JSON values. What is written of a message is read back as that message,
and it is taken for a message of its own kind: the method and the identity, which tell the kinds
apart, are written exactly by the kinds that have them.
-/
namespace EditorBridge.Rpc

open Json (Definite)

variable {members : Keyed Json} {origin : Origin}

namespace Request

/-- A request as a sender has it. -/
structure WellFormed (r : Request) : Prop where
  id : r.id.Canonical ∧ r.id ≠ .null
  params : Definite r.params

theorem independent : RecordShape.Independent shape.fields := by
  simp [shape]

/-- The objects that are read as a request, and the request that each of them is. -/
theorem read_object_iff (h : (Json.object members).Canonical) {r : Request} :
    read origin (Document.ofJson (.object members)) = .ok r ↔
      members.find? "jsonrpc" = some (.string r.jsonrpc) ∧ members.find? "id" = some r.id ∧
        members.find? "method" = some (.string r.method) ∧
        (members.find? "params").bind Json.nonNull? = r.params := by
  obtain ⟨jsonrpc, id, method, params⟩ := r
  have hCanonical {key : String} {v : Json} (hFound : members.find? key = some v) : v.Canonical :=
    h.get? hFound
  rw [read, RecordShape.read_object_iff independent h.1.distinct]
  simp only [shape, List.forall_mem_cons, RecordShape.collect, Keyed.has]
  -- Without one of the first three members both sides are false.
  cases hVersion : members.find? "jsonrpc" with
  | none => simp
  | some version =>
    cases hId : members.find? "id" with
    | none => simp
    | some v =>
      cases hMethod : members.find? "method" with
      | none => simp
      | some name =>
        cases hParams : members.find? "params" with
        | none =>
          simp [Document.readText_ofJson, Document.readAny_ofJson (hCanonical hId),
            Option.bind_eq_some_iff, Json.string?_eq_some_iff]
          grind
        | some p =>
          simp [Document.readText_ofJson, Document.readAny_ofJson (hCanonical hId),
            Document.readOptional_any (hCanonical hParams), Option.bind_eq_some_iff,
            Json.string?_eq_some_iff]
          grind

/-- A member is written exactly when the request has it. -/
theorem get?_toJson (r : Request) (key : String) :
    r.toJson.get? key = (Keyed.find? [("jsonrpc", some (.string r.jsonrpc)), ("id", some r.id),
      ("method", some (.string r.method)), ("params", r.params)] key).join :=
  Json.get?_ofPresent (by simp [Keyed.Distinct]) key

theorem read_toJson {r : Request} (h : r.WellFormed) :
    read origin (Document.ofJson r.toJson) = .ok r := by
  apply (RecordShape.read_ofPresent_iff independent (by simp [Keyed.Distinct])).mpr
  constructor
  · simp [shape, Keyed.find?]
  · rw [shape, RecordShape.collect_of_written rfl (Document.readText_string _),
      RecordShape.collect_of_written rfl (Document.readAny_ofJson h.id.1),
      RecordShape.collect_of_written rfl (Document.readText_string _),
      RecordShape.collect_of_gives rfl h.params.gives]
    rfl

end Request

namespace Notification

structure WellFormed (n : Notification) : Prop where
  params : Definite n.params

theorem independent : RecordShape.Independent shape.fields := by
  simp [shape]

theorem get?_toJson (n : Notification) (key : String) :
    n.toJson.get? key = (Keyed.find? [("jsonrpc", some (.string n.jsonrpc)),
      ("method", some (.string n.method)), ("params", n.params)] key).join :=
  Json.get?_ofPresent (by simp [Keyed.Distinct]) key

theorem read_toJson {n : Notification} (h : n.WellFormed) :
    read origin (Document.ofJson n.toJson) = .ok n := by
  apply (RecordShape.read_ofPresent_iff independent (by simp [Keyed.Distinct])).mpr
  constructor
  · simp [shape, Keyed.find?]
  · rw [shape, RecordShape.collect_of_written rfl (Document.readText_string _),
      RecordShape.collect_of_written rfl (Document.readText_string _),
      RecordShape.collect_of_gives rfl h.params.gives]
    rfl

end Notification

namespace ErrorObject

structure WellFormed (e : ErrorObject) : Prop where
  code : -Int.pow 2 31 ≤ e.code ∧ e.code ≤ Int.pow 2 31 - 1
  data : Definite e.data

theorem independent : RecordShape.Independent shape.fields := by
  simp [shape]

theorem get?_toJson (e : ErrorObject) (key : String) :
    e.toJson.get? key = (Keyed.find? [("code", some (.int e.code)),
      ("message", some (.string e.message)), ("data", e.data)] key).join :=
  Json.get?_ofPresent (by simp [Keyed.Distinct]) key

theorem read_toJson {e : ErrorObject} (h : e.WellFormed) :
    read origin (Document.ofJson e.toJson) = .ok e := by
  apply (RecordShape.read_ofPresent_iff independent (by simp [Keyed.Distinct])).mpr
  constructor
  · simp [shape, Keyed.find?]
  · rw [shape, RecordShape.collect_of_written rfl (Document.readInt32_ofJson h.code),
      RecordShape.collect_of_written rfl (Document.readText_string _),
      RecordShape.collect_of_gives rfl h.data.gives]
    rfl

end ErrorObject

namespace Response

structure WellFormed (r : Response) : Prop where
  id : r.id.Canonical
  result : Definite r.result
  error : ∀ e ∈ r.error, e.WellFormed

theorem independent (origin : Origin) : RecordShape.Independent (shape origin).fields := by
  simp [shape]

theorem get?_toJson (r : Response) (key : String) :
    r.toJson.get? key = (Keyed.find? [("jsonrpc", some (.string r.jsonrpc)), ("id", some r.id),
      ("result", r.result), ("error", r.error.map ErrorObject.toJson)] key).join :=
  Json.get?_ofPresent (by simp [Keyed.Distinct]) key

theorem gives_error {error : Option ErrorObject} (h : ∀ e ∈ error, e.WellFormed) :
    Document.Gives (ErrorObject.read origin) (error.map ErrorObject.toJson) error := by
  cases error with
  | none => trivial
  | some e =>
    exact Document.readOptional_of_ok (by simp [ErrorObject.toJson, Json.ofMembers])
      (ErrorObject.read_toJson (h e rfl))

theorem read_toJson {r : Response} (h : r.WellFormed) :
    read origin (Document.ofJson r.toJson) = .ok r := by
  apply (RecordShape.read_ofPresent_iff (independent origin) (by simp [Keyed.Distinct])).mpr
  constructor
  · simp [shape, Keyed.find?]
  · rw [shape, RecordShape.collect_of_written rfl (Document.readText_string _),
      RecordShape.collect_of_written rfl (Document.readAny_ofJson h.id),
      RecordShape.collect_of_gives rfl h.result.gives,
      RecordShape.collect_of_gives rfl (gives_error h.error)]
    rfl

end Response

namespace Inbound

def toJson : Inbound → Json
  | .request r => r.toJson
  | .notification n => n.toJson
  | .response r => r.toJson

def WellFormed : Inbound → Prop
  | .request r => r.WellFormed
  | .notification n => n.WellFormed
  | .response r => r.WellFormed

/-- A message is taken for what it is. -/
theorem ofJson_toJson {m : Inbound} (h : m.WellFormed) : ofJson m.toJson = .ok m := by
  cases m with
  | request r =>
    have hMethod : r.toJson.get? "method" = some (.string r.method) := r.get?_toJson _
    have hId : r.toJson.get? "id" = some r.id := r.get?_toJson _
    simp only [toJson, ofJson, hMethod, hId, Option.bind_some, Json.nonNull?_of_ne h.id.2,
      Request.read_toJson h]
    rfl
  | notification n =>
    have hMethod : n.toJson.get? "method" = some (.string n.method) := n.get?_toJson _
    have hId : n.toJson.get? "id" = none := n.get?_toJson _
    simp only [toJson, ofJson, hMethod, hId, Option.bind_none, Notification.read_toJson h]
    rfl
  | response r =>
    have hMethod : r.toJson.get? "method" = none := r.get?_toJson _
    simp only [toJson, ofJson, hMethod, Response.read_toJson h]
    rfl

/-- The values that are taken for a request, and the request that each of them is. -/
theorem ofJson_eq_request_iff {value : Json} (h : value.Canonical) {r : Request} :
    ofJson value = .ok (.request r) ↔
      value.get? "jsonrpc" = some (.string r.jsonrpc) ∧ value.get? "id" = some r.id ∧
        r.id ≠ .null ∧ value.get? "method" = some (.string r.method) ∧
        (value.get? "params").bind Json.nonNull? = r.params := by
  cases hMethod : value.get? "method" with
  | none => simp [ofJson, hMethod, Decoded.map_eq_ok_iff]
  | some method =>
    cases hId : (value.get? "id").bind Json.nonNull? with
    | none =>
      simp only [ofJson, hMethod, hId, Decoded.map_eq_ok_iff, reduceCtorEq, and_false, exists_false,
        false_iff, not_and]
      intro _ hFound hNonNull
      rw [hFound, Option.bind_some, Json.nonNull?_of_ne hNonNull] at hId
      cases hId
    | some id =>
      have hNonNull {v : Json} (hFound : value.get? "id" = some v) : v ≠ .null := by
        rintro rfl
        rw [hFound] at hId
        cases hId
      simp only [ofJson, hMethod, hId, Decoded.map_eq_ok_iff, request.injEq, exists_eq_right]
      cases value with
      | object members =>
        rw [Request.read_object_iff h]
        simp only [Json.get?] at hMethod hNonNull ⊢
        rw [hMethod]
        constructor
        · rintro ⟨hVersion, hFound, hRest⟩
          exact ⟨hVersion, hFound, hNonNull hFound, hRest⟩
        · rintro ⟨hVersion, hFound, -, hRest⟩
          exact ⟨hVersion, hFound, hRest⟩
      | _ => cases hMethod

/-- The members that are left out where there is nothing to write. -/
def optional : Inbound → Keyed (Option Json)
  | .request r => [("params", r.params)]
  | .notification n => [("params", n.params)]
  | .response r => [("result", r.result), ("error", r.error.map ErrorObject.toJson)]

theorem get?_optional (m : Inbound) : ∀ entry ∈ m.optional, m.toJson.get? entry.1 = entry.2 := by
  cases m with
  | request r => simpa [optional, toJson, Keyed.find?] using r.get?_toJson "params"
  | notification n => simpa [optional, toJson, Keyed.find?] using n.get?_toJson "params"
  | response r =>
    have hResult := r.get?_toJson "result"
    have hError := r.get?_toJson "error"
    simpa [optional, toJson, Keyed.find?] using And.intro hResult hError

end Inbound
end EditorBridge.Rpc
