import EditorBridge.Proofs.Adapter.Encoding
import EditorBridge.Proofs.Json.Decidable
import EditorBridge.Proofs.Rpc.Encoding
/-!
The messages of both protocols on the wire. A message is read back as it was written, so one of one
kind is never taken for one of another, and a member is written exactly when there is something to
write in it.
-/
namespace EditorBridge

/-- Every message that a sender can have is read back as that message, whatever free-form values it
holds. A JSON-RPC message is read back by the reader of its own kind and is told from the other
kinds by what stands in it; a message of the adapter names its kind. -/
theorem messages_read_back :
    (∀ r : Rpc.Request, r.WellFormed → ∀ origin,
      Rpc.Request.read origin (Document.ofJson r.toJson) = .ok r) ∧
    (∀ n : Rpc.Notification, n.WellFormed → ∀ origin,
      Rpc.Notification.read origin (Document.ofJson n.toJson) = .ok n) ∧
    (∀ r : Rpc.Response, r.WellFormed → ∀ origin,
      Rpc.Response.read origin (Document.ofJson r.toJson) = .ok r) ∧
    (∀ m : Rpc.Inbound, m.WellFormed →
      (∀ text, Json.parse text = .ok m.toJson → Rpc.Inbound.parse text = .ok m) ∧
      (∀ other : Rpc.Inbound, other.WellFormed → other.toJson = m.toJson → other = m)) ∧
    (∀ m : Adapter.Message, m.WellFormed →
      Adapter.Message.read (Document.ofJson m.toJson) = .ok m ∧
      (∀ members, members.Perm m.toMembers →
        Adapter.Message.read (Document.ofJson (.object members)) = .ok m) ∧
      (∀ other : Adapter.Message, other.WellFormed → other.toJson = m.toJson → other = m)) ∧
    (∀ m : Rpc.Inbound, ∀ entry ∈ m.optional, m.toJson.get? entry.1 = entry.2) ∧
    (∀ e : Rpc.ErrorObject, e.toJson.get? "data" = e.data) ∧
    (∀ m : Adapter.Message, ∀ entry ∈ m.optional, m.toJson.get? entry.1 = entry.2) := by
  have hAdapter {m : Adapter.Message} (h : m.WellFormed) :
      Adapter.Message.read (Document.ofJson m.toJson) = .ok m :=
    Adapter.Message.read_members h m.toMembers_distinct.ofEntries_perm
  refine ⟨fun r h _ => r.read_toJson h, fun n h _ => n.read_toJson h, fun r h _ => r.read_toJson h,
    fun m h => ⟨?_, ?_⟩, fun m h => ⟨hAdapter h, fun _ => Adapter.Message.read_members h, ?_⟩,
    Rpc.Inbound.get?_optional, fun e => e.get?_toJson "data", Adapter.Message.get?_optional⟩
  · intro text hText
    rw [Rpc.Inbound.parse, hText]
    exact Rpc.Inbound.ofJson_toJson h
  · intro other hOther hSame
    have hRead := Rpc.Inbound.ofJson_toJson hOther
    rw [hSame, Rpc.Inbound.ofJson_toJson h] at hRead
    exact (Except.ok.inj hRead).symm
  · intro other hOther hSame
    have hRead := hAdapter hOther
    rw [hSame, hAdapter h] at hRead
    exact (Except.ok.inj hRead).symm

/-- A request whose identity and parameters have members with the names that tell messages apart. -/
def nestedRequest : Rpc.Request where
  jsonrpc := "2.0"
  id := .object [("id", .null), ("method", .array [.int (-1), .string ""])]
  method := "id"
  params := some (.object [("error", .object []), ("result", .bool true)])

/-- A response without an identity, to a request that could not be read. -/
def nestedResponse : Rpc.Response where
  jsonrpc := "2.0"
  id := .null
  result := none
  error := some ⟨-32700, "", some (.object [("method", .string "initialize")])⟩

/-- An answer of the adapter whose body calls itself an event. -/
def nestedAnswer : Adapter.Response where
  seq := -1
  requestSeq := 7
  success := false
  command := "threads"
  message := none
  body := some (.object [("seq", .null), ("type", .string "event")])

theorem nestedRequest_wellFormed : nestedRequest.WellFormed := by
  constructor <;> decide +kernel

theorem nestedResponse_wellFormed : nestedResponse.WellFormed := by
  refine ⟨by decide +kernel, by decide +kernel, ?_⟩
  rintro e ⟨⟩
  constructor <;> decide +kernel

theorem nestedAnswer_wellFormed : nestedAnswer.WellFormed := by
  constructor
  · constructor <;> decide +kernel
  · constructor <;> decide +kernel
  · decide +kernel

theorem nested_messages_read_back :
    Rpc.Inbound.parse "\x7b\"params\":\x7b\"result\":true,\"error\":\x7b\x7d\x7d,\"method\":\"id\",
      \"id\":\x7b\"id\":null,\"method\":[-1,\"\"]\x7d,\"jsonrpc\":\"2.0\"\x7d" =
        .ok (.request nestedRequest) ∧
      Rpc.Response.read .tree (Document.ofJson nestedResponse.toJson) = .ok nestedResponse ∧
      nestedResponse.toJson.get? "result" = none ∧
      Adapter.Message.read (Document.ofJson (Adapter.Message.response nestedAnswer).toJson) =
        .ok (.response nestedAnswer) := by
  obtain ⟨-, -, hResponse, hInbound, hAdapter, hOptional, -, -⟩ := messages_read_back
  refine ⟨?_, ?_, ?_, ?_⟩
  · apply (hInbound (.request nestedRequest) nestedRequest_wellFormed).1
    decide +kernel
  · exact hResponse nestedResponse nestedResponse_wellFormed .tree
  · exact hOptional (.response nestedResponse) ("result", none) List.mem_cons_self
  · exact (hAdapter (.response nestedAnswer) nestedAnswer_wellFormed).1

end EditorBridge
