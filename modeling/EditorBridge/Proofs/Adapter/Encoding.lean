import EditorBridge.Adapter.Message
import EditorBridge.Proofs.Json.Record
/-!
The messages of the debug adapter protocol as JSON values. The kind stands among the other members,
in whatever place; with it taken out, what is left is the content, which is read back as it was.
-/
namespace EditorBridge.Adapter

open Json (Definite)

variable {members : Keyed Json} {origin : Origin}

/-- A number that fits into 64 bits with a sign. -/
def Fits (i : Int) : Prop := -Int.pow 2 63 ≤ i ∧ i ≤ Int.pow 2 63 - 1

namespace Request

structure WellFormed (r : Request) : Prop where
  seq : Fits r.seq
  arguments : Definite r.arguments

theorem independent : RecordShape.Independent shape.fields := by
  simp [shape]

theorem read_members {r : Request} (h : r.WellFormed) (hMembers : members.Perm r.toMembers) :
    read origin (Document.ofJson (.object members)) = .ok r := by
  apply (RecordShape.read_present_iff independent (by simp [Keyed.Distinct]) hMembers).mpr
  constructor
  · simp [shape, Keyed.find?]
  · rw [shape, RecordShape.collect_of_written rfl (Document.readInt64_ofJson h.seq),
      RecordShape.collect_of_written rfl (Document.readText_string _),
      RecordShape.collect_of_gives rfl h.arguments.gives]
    rfl

theorem get?_toMembers (r : Request) (key : String) :
    Keyed.find? r.toMembers key = (Keyed.find? [("seq", some (.int r.seq)),
      ("command", some (.string r.command)), ("arguments", r.arguments)] key).join :=
  Json.find?_present (by simp [Keyed.Distinct]) key

end Request

namespace Response

structure WellFormed (r : Response) : Prop where
  seq : Fits r.seq
  requestSeq : Fits r.requestSeq
  body : Definite r.body

theorem independent : RecordShape.Independent shape.fields := by
  simp [shape]

theorem gives_text (text : Option String) :
    Document.Gives Document.readText (text.map .string) text := by
  cases text with
  | none => trivial
  | some s => rfl

theorem read_members {r : Response} (h : r.WellFormed) (hMembers : members.Perm r.toMembers) :
    read origin (Document.ofJson (.object members)) = .ok r := by
  apply (RecordShape.read_present_iff independent (by simp [Keyed.Distinct]) hMembers).mpr
  constructor
  · simp [shape, Keyed.find?]
  · rw [shape, RecordShape.collect_of_written rfl (Document.readInt64_ofJson h.seq),
      RecordShape.collect_of_written rfl (Document.readInt64_ofJson h.requestSeq),
      RecordShape.collect_of_written rfl (Document.readBool_bool _),
      RecordShape.collect_of_written rfl (Document.readText_string _),
      RecordShape.collect_of_gives rfl (gives_text _),
      RecordShape.collect_of_gives rfl h.body.gives]
    rfl

theorem get?_toMembers (r : Response) (key : String) :
    Keyed.find? r.toMembers key = (Keyed.find? [("seq", some (.int r.seq)),
      ("request_seq", some (.int r.requestSeq)), ("success", some (.bool r.success)),
      ("command", some (.string r.command)), ("message", r.message.map .string),
      ("body", r.body)] key).join :=
  Json.find?_present (by simp [Keyed.Distinct]) key

end Response

namespace Event

structure WellFormed (e : Event) : Prop where
  seq : Fits e.seq
  body : Definite e.body

theorem independent : RecordShape.Independent shape.fields := by
  simp [shape]

theorem read_members {e : Event} (h : e.WellFormed) (hMembers : members.Perm e.toMembers) :
    read origin (Document.ofJson (.object members)) = .ok e := by
  apply (RecordShape.read_present_iff independent (by simp [Keyed.Distinct]) hMembers).mpr
  constructor
  · simp [shape, Keyed.find?]
  · rw [shape, RecordShape.collect_of_written rfl (Document.readInt64_ofJson h.seq),
      RecordShape.collect_of_written rfl (Document.readText_string _),
      RecordShape.collect_of_gives rfl h.body.gives]
    rfl

theorem get?_toMembers (e : Event) (key : String) :
    Keyed.find? e.toMembers key = (Keyed.find? [("seq", some (.int e.seq)),
      ("event", some (.string e.event)), ("body", e.body)] key).join :=
  Json.find?_present (by simp [Keyed.Distinct]) key

end Event

theorem Kind.read_name (kind : Kind) :
    Kind.read (Document.ofJson (.string kind.name)) = .ok kind := by
  cases kind <;> rfl

namespace Message

def kind : Message → Kind
  | .request _ => .request
  | .response _ => .response
  | .event _ => .event

/-- The members besides the kind. -/
def content : Message → Keyed Json
  | .request r => r.toMembers
  | .response r => r.toMembers
  | .event e => e.toMembers

def WellFormed : Message → Prop
  | .request r => r.WellFormed
  | .response r => r.WellFormed
  | .event e => e.WellFormed

theorem toMembers_eq (m : Message) :
    m.toMembers = ("type", .string m.kind.name) :: m.content := by
  cases m <;> rfl

theorem content_find?_type (m : Message) : Keyed.find? m.content "type" = none := by
  cases m with
  | request r => exact (r.get?_toMembers _).trans rfl
  | response r => exact (r.get?_toMembers _).trans rfl
  | event e => exact (e.get?_toMembers _).trans rfl

theorem content_distinct (m : Message) : m.content.Distinct := by
  cases m <;> exact List.Nodup.sublist (Json.present_keys _) (by simp)

theorem toMembers_distinct (m : Message) : Keyed.Distinct m.toMembers := by
  rw [m.toMembers_eq]
  refine List.nodup_cons.mpr ⟨?_, m.content_distinct⟩
  intro hMem
  obtain ⟨entry, hEntry, hKey⟩ := List.mem_map.mp hMem
  exact Keyed.find?_eq_none_iff.mp m.content_find?_type entry hEntry hKey

/-- Besides the kind, what is written is the content. -/
theorem get?_toJson (m : Message) {key : String} (h : key ≠ "type") :
    m.toJson.get? key = Keyed.find? m.content key := by
  show Keyed.find? (Keyed.ofEntries m.toMembers) key = _
  rw [m.toMembers_distinct.find?_ofEntries, m.toMembers_eq, Keyed.find?, if_neg (Ne.symm h)]

/-- The members of a well-formed message hold canonical values. -/
theorem content_canonical {m : Message} (h : m.WellFormed) :
    ∀ entry ∈ m.content, entry.2.Canonical := by
  have hWritten {value : Json} (hValue : value.Canonical) : ∀ v ∈ some value, v.Canonical := by
    simpa using hValue
  have hGiven {member : Option Json} (hMember : Definite member) : ∀ v ∈ member, v.Canonical :=
    fun v hValue => (hMember v hValue).1
  cases m with
  | request r =>
    apply Json.canonical_present
    simp only [List.forall_mem_cons]
    exact ⟨hWritten trivial, hWritten trivial, hGiven h.arguments, by simp⟩
  | response r =>
    have hText : ∀ v ∈ r.message.map Json.string, v.Canonical := by
      intro v hValue
      obtain ⟨s, -, rfl⟩ := Option.map_eq_some_iff.mp hValue
      trivial
    apply Json.canonical_present
    simp only [List.forall_mem_cons]
    exact ⟨hWritten trivial, hWritten trivial, hWritten trivial, hWritten trivial, hText,
      hGiven h.body, by simp⟩
  | event e =>
    apply Json.canonical_present
    simp only [List.forall_mem_cons]
    exact ⟨hWritten trivial, hWritten trivial, hGiven h.body, by simp⟩

/-- With no kind among them, the members stay as they are. -/
theorem splitKind_of_none (found : Option Kind) (h : members.find? "type" = none)
    (hCanonical : ∀ entry ∈ members, entry.2.Canonical) :
    splitKind found (Document.ofJsonMembers members) =
      .ok (found, Document.ofJsonMembers members) := by
  induction members with
  | nil => rfl
  | cons entry rest ih =>
    obtain ⟨key, v⟩ := entry
    have hOther : key ≠ "type" := Keyed.find?_eq_none_iff.mp h (key, v) List.mem_cons_self
    have hRest : Keyed.find? rest "type" = none := by simpa [Keyed.find?, hOther] using h
    have hTail := ih hRest fun entry hMem => hCanonical entry (List.mem_cons_of_mem _ hMem)
    rw [Document.ofJsonMembers, splitKind, if_neg hOther,
      Document.readAny_ofJson (hCanonical _ List.mem_cons_self), hTail]
    rfl

/-- The kind is taken out of the members, wherever it stands. -/
theorem splitKind_of_some {k : Kind} (hKeys : members.Distinct)
    (h : members.find? "type" = some (.string k.name))
    (hCanonical : ∀ entry ∈ members, entry.2.Canonical) :
    splitKind none (Document.ofJsonMembers members) =
      .ok (some k, Document.ofJsonMembers (members.erase "type")) := by
  induction members with
  | nil => cases h
  | cons entry rest ih =>
    obtain ⟨key, v⟩ := entry
    obtain ⟨hNew, hDistinct⟩ := List.nodup_cons.mp hKeys
    have hLater : ∀ entry ∈ rest, entry.2.Canonical := fun entry hMem =>
      hCanonical entry (List.mem_cons_of_mem _ hMem)
    by_cases hSame : key = "type"
    · subst hSame
      obtain rfl : v = .string k.name := by simpa [Keyed.find?] using h
      have hNone : Keyed.find? rest "type" = none := Keyed.find?_eq_none_iff.mpr
        fun other hOther hKey => hNew (List.mem_map.mpr ⟨other, hOther, hKey⟩)
      rw [Document.ofJsonMembers, splitKind, if_pos rfl, Kind.read_name, Keyed.erase_cons_self,
        Keyed.erase_of_find?_eq_none hNone]
      exact splitKind_of_none (some k) hNone hLater
    · have hFound : Keyed.find? rest "type" = some (.string k.name) := by
        simpa [Keyed.find?, hSame] using h
      rw [Document.ofJsonMembers, splitKind, if_neg hSame,
        Document.readAny_ofJson (hCanonical _ List.mem_cons_self), ih hDistinct hFound hLater,
        Keyed.erase_cons_of_ne hSame]
      rfl

theorem readContent_content {m : Message} (h : m.WellFormed) (hMembers : members.Perm m.content) :
    readContent m.kind (Document.ofJson (.object members)) = .ok m := by
  cases m with
  | request r =>
    show Message.request <$> _ = _
    rw [Request.read_members h hMembers]
    rfl
  | response r =>
    show Message.response <$> _ = _
    rw [Response.read_members h hMembers]
    rfl
  | event e =>
    show Message.event <$> _ = _
    rw [Event.read_members h hMembers]
    rfl

/-- The members of a message are read back as the message, in whatever order they stand. -/
theorem read_members {m : Message} (h : m.WellFormed) (hMembers : members.Perm m.toMembers) :
    read (Document.ofJson (.object members)) = .ok m := by
  have hWhole := m.toMembers_eq
  have hDistinct := m.toMembers_distinct
  have hKeys : members.Distinct := (hMembers.map Prod.fst).nodup_iff.mpr hDistinct
  have hFound : members.find? "type" = some (.string m.kind.name) := by
    rw [hDistinct.find?_perm hMembers, hWhole]
    rfl
  have hCanonical : ∀ entry ∈ members, entry.2.Canonical := by
    intro entry hMem
    have hWritten := hMembers.mem_iff.mp hMem
    rw [hWhole] at hWritten
    rcases List.mem_cons.mp hWritten with rfl | hContent
    · trivial
    · exact content_canonical h entry hContent
  have hContent : (members.erase "type").Perm m.content := by
    have hErase : Keyed.erase m.toMembers "type" = m.content := by
      rw [hWhole, Keyed.erase_cons_self, Keyed.erase_of_find?_eq_none m.content_find?_type]
    exact hErase ▸ hMembers.filter _
  rw [Document.ofJson, read, splitKind_of_some hKeys hFound hCanonical]
  exact readContent_content h hContent

/-- The members that are left out where there is nothing to write. -/
def optional : Message → Keyed (Option Json)
  | .request r => [("arguments", r.arguments)]
  | .response r => [("message", r.message.map .string), ("body", r.body)]
  | .event e => [("body", e.body)]

theorem get?_optional (m : Message) : ∀ entry ∈ m.optional, m.toJson.get? entry.1 = entry.2 := by
  have hContent {key : String} (hKey : key ≠ "type") := m.get?_toJson hKey
  cases m with
  | request r =>
    have hArguments := (hContent (by decide)).trans (r.get?_toMembers "arguments")
    simpa [optional, Keyed.find?] using hArguments
  | response r =>
    have hMessage := (hContent (by decide)).trans (r.get?_toMembers "message")
    have hBody := (hContent (by decide)).trans (r.get?_toMembers "body")
    simpa [optional, Keyed.find?] using And.intro hMessage hBody
  | event e =>
    have hBody := (hContent (by decide)).trans (e.get?_toMembers "body")
    simpa [optional, Keyed.find?] using hBody

end Message
end EditorBridge.Adapter
