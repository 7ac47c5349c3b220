import EditorBridge.Proofs.Json.Reading
import EditorBridge.Proofs.Rpc.Encoding
import EditorBridge.Proofs.Rpc.Sending
/-!
The texts of the messages that a client writes. Each is read as an object with the members of the
message, if what the message carries reads back: a call has its number and its method, a notification
its method and no number, and a reply the identity of its request and no method.
-/
namespace EditorBridge.Rpc

open Json (IsRecord ReadsBack)

theorem ErrorCode.value_bounds (code : ErrorCode) :
    -Int.pow 2 31 ≤ code.value ∧ code.value ≤ Int.pow 2 31 - 1 := by
  cases code <;> decide

namespace ErrorObject

/-- An error as a client writes one. -/
structure Writable (e : ErrorObject) : Prop where
  code : -Int.pow 2 31 ≤ e.code ∧ e.code ≤ Int.pow 2 31 - 1
  data : ∀ v ∈ e.data, ReadsBack 2 v

variable {e : ErrorObject}

theorem readsBack_code (h : e.Writable) (depth : Nat) : ReadsBack depth (.int e.code) :=
  Json.readsBack_int32 ⟨h.code.1, Int.lt_of_le_sub_one h.code.2⟩

theorem readsBack_members (h : e.Writable) : ∀ m ∈ e.toMembers, ReadsBack 2 m.2 := by
  intro m hMem
  obtain ⟨entry, hEntry, hSome⟩ := List.mem_filterMap.mp hMem
  obtain ⟨v, hValue, rfl⟩ := Option.map_eq_some_iff.mp hSome
  simp only [List.mem_cons, List.not_mem_nil, or_false] at hEntry
  rcases hEntry with rfl | rfl | rfl
  · obtain rfl := Option.some.inj hValue
    exact readsBack_code h 2
  · obtain rfl := Option.some.inj hValue
    exact Json.readsBack_string _
  · exact h.data v hValue

/-- An error is written with its members in their order, and read with the order of the keys. -/
theorem readAs_toJson (h : e.Writable) : Json.ReadAs (.object e.toMembers) e.toJson where
  legible := ⟨by decide, Json.legibleMembers_iff.mpr fun m hMem =>
    (readsBack_members h m hMem).legible⟩
  toJson := by
    have hMembers : Document.toJsonMembers (Document.ofJsonMembers e.toMembers) =
        .ok e.toMembers :=
      Document.toJsonMembers_ofJson _ <| Json.canonicalMembers_iff.mpr fun m hMem =>
        (readsBack_members h m hMem).canonical
    rw [Document.ofJson, Document.toJson, hMembers]
    rfl

end ErrorObject

namespace Response

variable {r : Response}

/-- The members of a reply. -/
def entries (r : Response) : Keyed (Option Json) :=
  [("jsonrpc", some (.string r.jsonrpc)), ("id", some r.id), ("result", r.result),
    ("error", r.error.map ErrorObject.toJson)]

/-- A reply is read back where its text was written. -/
theorem isRecord_text (hId : ReadsBack 1 r.id) (hResult : ∀ v ∈ r.result, ReadsBack 1 v)
    (hError : ∀ e ∈ r.error, e.Writable) : IsRecord r.text r.entries := by
  have hFailure : Option.Rel Json.ReadAs (r.error.map fun e => .object e.toMembers)
      (r.error.map ErrorObject.toJson) := by
    cases hSome : r.error with
    | none => exact .none
    | some e => exact .some (ErrorObject.readAs_toJson (hError e hSome))
  apply Json.isRecord_of_readAs (by simp [entries, Keyed.Distinct])
  exact .cons ⟨rfl, .some (Json.readsBack_string _).readAs⟩ <| .cons ⟨rfl, .some hId.readAs⟩ <|
    .cons ⟨rfl, Json.rel_readAs hResult⟩ <| .cons ⟨rfl, hFailure⟩ .nil

/-- Whatever the identity is, its own text stands in the reply. -/
theorem text_id (r : Response) : ∃ more, r.text =
    "\x7b\"jsonrpc\":" ++ (Json.string r.jsonrpc).text ++ ",\"id\":" ++ r.id.text ++ more := by
  obtain ⟨rest, hMembers⟩ : ∃ rest, r.membersWith (r.error.map fun e => .object e.toMembers) =
      ("jsonrpc", .string r.jsonrpc) :: ("id", r.id) :: rest := ⟨_, rfl⟩
  refine ⟨String.ofList (Json.memberChars false rest ++ ['\x7d']), String.toList_inj.mp ?_⟩
  have hVersion : Json.stringChars "jsonrpc" = "\"jsonrpc\"".toList := by
    rw [Json.stringChars_eq]
    decide
  have hId : Json.stringChars "id" = "\"id\"".toList := by
    rw [Json.stringChars_eq]
    decide
  rw [text, hMembers, Json.recordText_eq, Json.toList_text_object, Json.memberChars_cons,
    Json.memberChars_cons, hVersion, hId]
  simp [Json.comma]

end Response

namespace Utterance

/-- The members of a message. -/
def entries : Utterance → Keyed (Option Json)
  | call id method params =>
    [("jsonrpc", some (.string version)), ("id", some (.nat id)), ("method", some (.string method)),
      ("params", Client.parameters params)]
  | notice method params =>
    [("jsonrpc", some (.string version)), ("method", some (.string method)),
      ("params", Client.parameters params)]

def params : Utterance → Option Json
  | call _ _ params => params
  | notice _ params => params

/-- The number of a call fits into 64 bits, and the parameters read back. -/
structure Writable (u : Utterance) : Prop where
  number : ∀ id method params, u = call id method params → id < Nat.pow 2 64
  params : ∀ v ∈ u.params, ReadsBack 1 v

theorem readsBack_parameters {params : Option Json} (h : ∀ v ∈ params, ReadsBack 1 v) :
    ∀ v ∈ Client.parameters params, ReadsBack 1 v := by
  intro v hMem
  obtain ⟨w, hParams, hNonNull⟩ := Option.bind_eq_some_iff.mp hMem
  exact Json.eq_of_nonNull? hNonNull ▸ h w hParams

/-- What is read where the message of a caller was written. -/
theorem isRecord_text {u : Utterance} (h : u.Writable) : IsRecord u.text u.entries := by
  have hParams := readsBack_parameters h.params
  cases u with
  | call id method params =>
    apply Json.isRecord_recordText (by simp [Keyed.Distinct])
    simp only [List.forall_mem_cons, Option.mem_def, Option.some.injEq, forall_eq']
    exact ⟨Json.readsBack_string _, Json.readsBack_nat (h.number _ _ _ rfl), Json.readsBack_string _,
      hParams, by simp⟩
  | notice method params =>
    apply Json.isRecord_recordText (by simp [Keyed.Distinct])
    simp only [List.forall_mem_cons, Option.mem_def, Option.some.injEq, forall_eq']
    exact ⟨Json.readsBack_string _, Json.readsBack_string _, hParams, by simp⟩

end Utterance
end EditorBridge.Rpc
