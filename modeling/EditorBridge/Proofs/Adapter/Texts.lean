import EditorBridge.Proofs.Adapter.Encoding
import EditorBridge.Proofs.Json.Reading
/-!
The texts of the messages of the debug adapter protocol. What is written of a message is read back
as the message, if what it carries is legible.
-/
namespace EditorBridge.Adapter.Message

/-- What the message carries besides its kind is legible where it stands. -/
def Legible (m : Message) : Prop := ∀ entry ∈ m.content, entry.2.Legible 1

/-- A message is read back from its text. -/
theorem parse_text {m : Message} (h : m.WellFormed) (hLegible : m.Legible) :
    parse m.text = .ok m := by
  have hMembers : ∀ entry ∈ m.toMembers, entry.2.Legible 1 := by
    rw [m.toMembers_eq]
    exact List.forall_mem_cons.mpr ⟨trivial, hLegible⟩
  have hObject : (Json.object m.toMembers).Legible 0 :=
    ⟨by decide, Json.legibleMembers_iff.mpr hMembers⟩
  have hText : m.text = (Json.object m.toMembers).text := Json.recordText_eq m.toMembers
  rw [parse, hText]
  exact Json.decodeText_of_ofText (Json.ofText_text hObject) (read_members h (List.Perm.refl _))

end EditorBridge.Adapter.Message
