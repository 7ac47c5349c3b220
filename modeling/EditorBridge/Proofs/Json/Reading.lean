import EditorBridge.Proofs.Json.Canonical
import EditorBridge.Proofs.Json.Printing
import EditorBridge.Proofs.Json.Tokens
/-!
Reading a written JSON value back. The value may have any members and items that are legible, that
is, whose numbers are read back from their own texts and which are not nested deeper than a reader
follows. What is read is the document of the value, so a canonical value is read back as it was.
-/
namespace EditorBridge

namespace Json

open Document (maxDepth)

mutual

/-- The value can stand inside `depth` arrays and objects of a text and be read there: its numbers
are legible, and nothing in it is nested too deeply. -/
def Legible (depth : Nat) : Json → Prop
  | .number n => Number.Legible n
  | .array items => depth < maxDepth ∧ LegibleItems (depth + 1) items
  | .object members => depth < maxDepth ∧ LegibleMembers (depth + 1) members
  | _ => True

def LegibleItems (depth : Nat) : List Json → Prop
  | [] => True
  | x :: rest => Legible depth x ∧ LegibleItems depth rest

def LegibleMembers (depth : Nat) : List (String × Json) → Prop
  | [] => True
  | (_, v) :: rest => Legible depth v ∧ LegibleMembers depth rest

end

end Json

namespace Document

open Json (Legible LegibleItems LegibleMembers)

variable {s rest : List Char}

theorem readWord_append (d : Document) (word rest : List Char) :
    readWord d word (word ++ rest) = (d, rest) := by
  induction word with
  | nil => rfl
  | cons w word ih => rw [List.cons_append, readWord, if_pos rfl, ih]

theorem limitDepth_of_lt {depth : Nat} (h : depth < maxDepth) (d : Document) :
    limitDepth (depth + 1) d = d :=
  if_neg (by omega)

theorem stops_ofJson (value : Json) : (ofJson value).stops = false := by
  cases value <;> rfl

/-- The text of a value opens with what closes no array. -/
theorem opens_text {depth : Nat} {value : Json} (h : Legible depth value) :
    ∃ c r, skipSpace value.text.toList = c :: r ∧ c ≠ ']' := by
  cases value with
  | null => exact ⟨'n', _, rfl, by decide⟩
  | bool b => cases b <;> exact ⟨_, _, rfl, by decide⟩
  | number n =>
    have hNumber : readValue 1 0 n.text.toList = (.number n, []) := h
    rcases number_of_readValue (congrArg Prod.fst hNumber) with
      ⟨r, hHead, -⟩ | ⟨c, r, hHead, hDigit, -⟩
    · exact ⟨'-', r, hHead, by decide⟩
    · exact ⟨c, r, hHead, by rintro rfl; exact absurd hDigit (by decide)⟩
  | string s =>
    refine ⟨'"', s.toList.flatMap Json.escapeChar ++ ['"'], ?_, by decide⟩
    rw [Json.toList_text_string, Json.stringChars_eq]
    rfl
  | array items =>
    refine ⟨'[', Json.itemChars true items ++ [']'], ?_, by decide⟩
    rw [Json.toList_text_array]
    rfl
  | object members =>
    refine ⟨'\x7b', Json.memberChars true members ++ ['\x7d'], ?_, by decide⟩
    rw [Json.toList_text_object]
    rfl

theorem text_ne_nil {depth : Nat} {value : Json} (h : Legible depth value) :
    value.text.toList ≠ [] := by
  obtain ⟨c, r, hHead, -⟩ := opens_text h
  intro hNone
  rw [hNone] at hHead
  cases hHead

/-- An array that is not empty is read item by item. -/
theorem readValue_array {c : Char} {r : List Char} (hHead : skipSpace s = c :: r) (hOpen : c ≠ ']')
    (fuel depth : Nat) {items : List Document} {fault : Option TextFault}
    (hItems : readItems fuel (depth + 1) s = (items, fault, rest)) :
    readValue (fuel + 1) depth ('[' :: s) =
      (limitDepth (depth + 1) (.array items fault), rest) := by
  have hSkip : skipSpace ('[' :: s) = '[' :: s := rfl
  rw [readValue, hSkip]
  simp only [hHead, hItems]
  split
  · rename_i hNone
    cases hNone
  · rename_i hClose
    exact absurd (List.cons.inj hClose).1 hOpen
  · rfl

/-- An object that is not empty is read member by member. -/
theorem readValue_object (fuel depth : Nat) {members : List (Document × Document)}
    {fault : Option TextFault}
    (hMembers : readMembers fuel (depth + 1) ('"' :: s) = (members, fault, rest)) :
    readValue (fuel + 1) depth ('\x7b' :: '"' :: s) =
      (limitDepth (depth + 1) (.object members fault), rest) := by
  have hSkip : skipSpace ('\x7b' :: '"' :: s) = '\x7b' :: '"' :: s := rfl
  have hInside : skipSpace ('"' :: s) = '"' :: s := rfl
  rw [readValue, hSkip]
  simp only [hInside, hMembers]
  rfl

theorem ends_cons {c : Char} (h : c = ',' ∨ c = ']' ∨ c = '\x7d') (rest : List Char) :
    Ends (c :: rest) := by
  intro other hOther
  obtain rfl := Option.some.inj hOther
  rcases h with rfl | rfl | rfl <;> decide

theorem ends_items (items : List Json) (rest : List Char) :
    Ends (Json.itemChars false items ++ ']' :: rest) := by
  cases items with
  | nil => exact ends_cons (by simp) rest
  | cons x items =>
    rw [Json.itemChars_false, List.cons_append]
    exact ends_cons (by simp) _

theorem ends_members (members : List (String × Json)) (rest : List Char) :
    Ends (Json.memberChars false members ++ '\x7d' :: rest) := by
  cases members with
  | nil => exact ends_cons (by simp) rest
  | cons member members =>
    rw [Json.memberChars_false, List.cons_append]
    exact ends_cons (by simp) _

mutual

/-- A written value is read back before whatever ends a number. -/
theorem readValue_text (fuel depth : Nat) (rest : List Char) (hRest : Ends rest) :
    ∀ value : Json, Legible depth value → value.text.toList.length ≤ fuel →
      readValue fuel depth (value.text.toList ++ rest) = (ofJson value, rest)
  | .null, _, hFuel => by
    obtain ⟨k, rfl⟩ := Nat.exists_eq_add_of_le' (Nat.le_trans (by decide) hFuel : 1 ≤ fuel)
    exact readWord_append .null ['u', 'l', 'l'] rest
  | .bool true, _, hFuel => by
    obtain ⟨k, rfl⟩ := Nat.exists_eq_add_of_le' (Nat.le_trans (by decide) hFuel : 1 ≤ fuel)
    exact readWord_append (.bool true) ['r', 'u', 'e'] rest
  | .bool false, _, hFuel => by
    obtain ⟨k, rfl⟩ := Nat.exists_eq_add_of_le' (Nat.le_trans (by decide) hFuel : 1 ≤ fuel)
    exact readWord_append (.bool false) ['a', 'l', 's', 'e'] rest
  | .number n, h, hFuel => by
    have hSome := List.length_pos_of_ne_nil (text_ne_nil h)
    obtain ⟨k, rfl⟩ := Nat.exists_eq_add_of_le' (Nat.le_trans hSome hFuel : 1 ≤ fuel)
    exact readValue_number_append hRest h k depth
  | .string s, _, hFuel => by
    rw [Json.toList_text_string, Json.stringChars_eq] at hFuel ⊢
    obtain ⟨k, rfl⟩ := Nat.exists_eq_add_of_le' (Nat.le_trans (by simp) hFuel : 1 ≤ fuel)
    rw [List.cons_append, List.append_assoc]
    exact readString_written s rest
  | .array items, h, hFuel => by
    rw [Json.toList_text_array] at hFuel ⊢
    simp only [List.length_cons, List.length_append, List.length_nil] at hFuel
    obtain ⟨k, rfl⟩ := Nat.exists_eq_add_of_le' (Nat.le_trans (by omega) hFuel : 1 ≤ fuel)
    cases items with
    | nil => exact congrArg (·, rest) (limitDepth_of_lt h.1 _)
    | cons x items =>
      have hItems := readItems_text k (depth + 1) rest (x :: items) h.2 (by simp) (by omega)
      obtain ⟨c, r, hHead, hOpen⟩ := opens_text h.2.1
      have hHead' : skipSpace (Json.itemChars true (x :: items) ++ ']' :: rest) =
          c :: (r ++ (Json.itemChars false items ++ ']' :: rest)) := by
        rw [Json.itemChars_cons, Json.comma, if_pos rfl, List.nil_append, List.append_assoc,
          skipSpace_append (by simp [hHead]), hHead, List.cons_append]
      rw [List.cons_append, List.append_assoc]
      show readValue (k + 1) depth ('[' :: (_ ++ ']' :: rest)) = _
      rw [readValue_array hHead' hOpen k depth hItems, limitDepth_of_lt h.1]
      rfl
  | .object members, h, hFuel => by
    rw [Json.toList_text_object] at hFuel ⊢
    simp only [List.length_cons, List.length_append, List.length_nil] at hFuel
    obtain ⟨k, rfl⟩ := Nat.exists_eq_add_of_le' (Nat.le_trans (by omega) hFuel : 1 ≤ fuel)
    cases members with
    | nil => exact congrArg (·, rest) (limitDepth_of_lt h.1 _)
    | cons member members =>
      obtain ⟨name, v⟩ := member
      have hMembers := readMembers_text k (depth + 1) rest ((name, v) :: members) h.2 (by simp)
        (by omega)
      rw [List.cons_append, List.append_assoc]
      show readValue (k + 1) depth ('\x7b' :: (_ ++ '\x7d' :: rest)) = _
      rw [Json.memberChars_cons, Json.comma, if_pos rfl, List.nil_append, Json.stringChars_eq]
        at hMembers ⊢
      rw [List.cons_append, List.cons_append] at hMembers ⊢
      rw [readValue_object k depth hMembers, limitDepth_of_lt h.1]
      rfl

theorem readItems_text (fuel depth : Nat) (rest : List Char) :
    ∀ items : List Json, LegibleItems depth items → items ≠ [] →
      (Json.itemChars true items).length + 1 ≤ fuel →
      readItems fuel depth (Json.itemChars true items ++ ']' :: rest) =
        (ofJsonItems items, none, rest)
  | [], _, hSome, _ => absurd rfl hSome
  | x :: items, h, _, hFuel => by
    obtain ⟨k, rfl⟩ := Nat.exists_eq_add_of_le' (Nat.le_trans (by omega) hFuel : 1 ≤ fuel)
    rw [Json.itemChars_cons, Json.comma, if_pos rfl, List.nil_append] at hFuel ⊢
    rw [List.length_append] at hFuel
    have hFirst := readValue_text k depth _ (ends_items items rest) x h.1 (by omega)
    rw [List.append_assoc, readItems]
    simp only [hFirst, stops_ofJson]
    by_cases hLast : items = []
    · subst hLast
      rfl
    · have hComma : Json.itemChars false items = ',' :: Json.itemChars true items := by
        cases items with
        | nil => exact absurd rfl hLast
        | cons y items => exact Json.itemChars_false y items
      rw [hComma, List.length_cons] at hFuel
      have hItems := readItems_text k depth rest items h.2 hLast (by omega)
      rw [hComma, List.cons_append]
      have hSkip : ∀ s, skipSpace (',' :: s) = ',' :: s := fun s => rfl
      simp only [hSkip, hItems]
      rfl

theorem readMembers_text (fuel depth : Nat) (rest : List Char) :
    ∀ members : List (String × Json), LegibleMembers depth members → members ≠ [] →
      (Json.memberChars true members).length + 1 ≤ fuel →
      readMembers fuel depth (Json.memberChars true members ++ '\x7d' :: rest) =
        (ofJsonMembers members, none, rest)
  | [], _, hSome, _ => absurd rfl hSome
  | (name, v) :: members, h, _, hFuel => by
    obtain ⟨k, rfl⟩ := Nat.exists_eq_add_of_le' (Nat.le_trans (by omega) hFuel : 1 ≤ fuel)
    rw [Json.memberChars_cons, Json.comma, if_pos rfl, List.nil_append] at hFuel ⊢
    simp only [List.length_append, List.length_cons] at hFuel
    have hFirst := readValue_text k depth _ (ends_members members rest) v h.1 (by omega)
    have hKey := readString_written name
      (':' :: (v.text.toList ++ (Json.memberChars false members ++ '\x7d' :: rest)))
    have hText : Json.stringChars name ++ ':' :: (v.text.toList ++ Json.memberChars false members) ++
        '\x7d' :: rest = '"' :: (name.toList.flatMap Json.escapeChar ++
          '"' :: ':' :: (v.text.toList ++ (Json.memberChars false members ++ '\x7d' :: rest))) := by
      rw [Json.stringChars_eq]
      simp
    have hQuote : ∀ s, skipSpace ('"' :: s) = '"' :: s := fun s => rfl
    have hColon : ∀ s, skipSpace (':' :: s) = ':' :: s := fun s => rfl
    have hString : (Document.string name).stops = false := rfl
    rw [hText, readMembers]
    simp only [hQuote, hKey, hString, hColon, hFirst, stops_ofJson]
    by_cases hLast : members = []
    · subst hLast
      rfl
    · have hComma : Json.memberChars false members = ',' :: Json.memberChars true members := by
        cases members with
        | nil => exact absurd rfl hLast
        | cons member members => exact Json.memberChars_false member members
      rw [hComma, List.length_cons] at hFuel
      have hMembers := readMembers_text k depth rest members h.2 hLast (by omega)
      have hSkip : ∀ s, skipSpace (',' :: s) = ',' :: s := fun s => rfl
      rw [hComma, List.cons_append]
      simp only [hSkip, hMembers]
      rfl

end

end Document

namespace Json

open Document (maxDepth)

variable {depth : Nat} {value : Json} {members written : List (String × Json)}

theorem legibleItems_iff {items : List Json} :
    LegibleItems depth items ↔ ∀ v ∈ items, Legible depth v := by
  induction items with
  | nil => simp [LegibleItems]
  | cons v items ih => simp [LegibleItems, ih]

theorem legibleMembers_iff :
    LegibleMembers depth members ↔ ∀ m ∈ members, Legible depth m.2 := by
  induction members with
  | nil => simp [LegibleMembers]
  | cons m members ih => simp [LegibleMembers, ih]

mutual

/-- What is legible further inside is legible further outside. -/
theorem Legible.mono : ∀ {other depth : Nat} {value : Json}, Legible depth value → other ≤ depth →
    Legible other value
  | _, _, .null, _, _ | _, _, .bool _, _, _ | _, _, .string _, _, _ => trivial
  | _, _, .number _, h, _ => h
  | _, _, .array _, h, hLess =>
    ⟨Nat.lt_of_le_of_lt hLess h.1, LegibleItems.mono h.2 (Nat.succ_le_succ hLess)⟩
  | _, _, .object _, h, hLess =>
    ⟨Nat.lt_of_le_of_lt hLess h.1, LegibleMembers.mono h.2 (Nat.succ_le_succ hLess)⟩

theorem LegibleItems.mono : ∀ {other depth : Nat} {items : List Json}, LegibleItems depth items →
    other ≤ depth → LegibleItems other items
  | _, _, [], _, _ => trivial
  | _, _, _ :: _, h, hLess => ⟨Legible.mono h.1 hLess, LegibleItems.mono h.2 hLess⟩

theorem LegibleMembers.mono : ∀ {other depth : Nat} {members : List (String × Json)},
    LegibleMembers depth members → other ≤ depth → LegibleMembers other members
  | _, _, [], _, _ => trivial
  | _, _, (_, _) :: _, h, hLess => ⟨Legible.mono h.1 hLess, LegibleMembers.mono h.2 hLess⟩

end

/-- What stands under a key of a legible value is legible. -/
theorem Legible.get? {part : Json} {key : String} (h : Legible depth value)
    (hPart : value.get? key = some part) : Legible depth part := by
  cases value with
  | object members =>
    have hMem := Keyed.mem_of_find? hPart
    exact (legibleMembers_iff.mp h.2 _ hMem).mono (Nat.le_succ depth)
  | _ => cases hPart

/-- The text of a legible value is its document, with nothing behind it. -/
theorem ofText_text (h : Legible 0 value) :
    Document.ofText value.text = (Document.ofJson value, false) := by
  have hRead := Document.readValue_text (2 * value.text.toList.length + 2) 0 []
    (by simp [Document.Ends]) value h (by omega)
  rw [List.append_nil] at hRead
  rw [Document.ofText, hRead]
  rfl

theorem decodeText_of_ofText {α : Type} {read : Document → Decoded α} {text : String} {d : Document}
    {a : α} (hText : Document.ofText text = (d, false)) (hRead : read d = .ok a) :
    Document.decodeText read text = .ok a := by
  simp only [Document.decodeText, hText, hRead]
  rfl

/-- A legible value is read back from its text as far as its document is the value. -/
theorem parse_text (h : Legible 0 value) : parse value.text = (Document.ofJson value).toJson := by
  unfold parse
  rw [ofText_text h]
  show ((Document.ofJson value).toJson >>= fun value => .ok value) = _
  cases (Document.ofJson value).toJson <;> rfl

/-- A value that is read back where it stands inside `depth` arrays and objects of a text. -/
structure ReadsBack (depth : Nat) (value : Json) : Prop where
  canonical : value.Canonical
  legible : Legible depth value

theorem readsBack_string (s : String) : ReadsBack depth (.string s) := ⟨trivial, trivial⟩

theorem readsBack_int {i : Int} (hLow : -Int.pow 2 63 ≤ i) (hHigh : i < Int.pow 2 64) :
    ReadsBack depth (.int i) :=
  ⟨trivial, Number.legible_integer hLow hHigh⟩

theorem readsBack_int32 {i : Int} (h : -Int.pow 2 31 ≤ i ∧ i < Int.pow 2 31) :
    ReadsBack depth (.int i) := by
  have hLow : -2147483648 ≤ i := h.1
  have hHigh : i < 2147483648 := h.2
  apply readsBack_int
  · show -9223372036854775808 ≤ i
    omega
  · show i < 18446744073709551616
    omega

theorem readsBack_nat {n : Nat} (h : n < Nat.pow 2 64) : ReadsBack depth (.nat n) := by
  have h : n < 18446744073709551616 := h
  apply readsBack_int
  · show -9223372036854775808 ≤ (n : Int)
    omega
  · show (n : Int) < 18446744073709551616
    omega

theorem readsBack_array {items : List Json} (hDepth : depth < maxDepth)
    (h : ∀ v ∈ items, ReadsBack (depth + 1) v) : ReadsBack depth (.array items) where
  canonical := canonicalItems_iff.mpr fun v hMem => (h v hMem).canonical
  legible := ⟨hDepth, legibleItems_iff.mpr fun v hMem => (h v hMem).legible⟩

theorem readsBack_object (hDepth : depth < maxDepth) (hSorted : Keyed.Sorted members)
    (h : ∀ m ∈ members, ReadsBack (depth + 1) m.2) : ReadsBack depth (.object members) where
  canonical := ⟨hSorted, canonicalMembers_iff.mpr fun m hMem => (h m hMem).canonical⟩
  legible := ⟨hDepth, legibleMembers_iff.mpr fun m hMem => (h m hMem).legible⟩

theorem ReadsBack.get? {part : Json} {key : String} (h : ReadsBack depth value)
    (hPart : value.get? key = some part) : ReadsBack depth part :=
  ⟨h.canonical.get? hPart, h.legible.get? hPart⟩

theorem ReadsBack.toJson_ofJson (h : ReadsBack depth value) :
    (Document.ofJson value).toJson = .ok value :=
  Document.toJson_ofJson value h.canonical

/-- The text of a value that reads back is read as the value. -/
theorem ReadsBack.parse_text (h : ReadsBack 0 value) : parse value.text = .ok value :=
  (Json.parse_text h.legible).trans h.toJson_ofJson

/-- The first value is legible where it stands in a record, and is read as the second one. -/
structure ReadAs (value read : Json) : Prop where
  legible : Legible 1 value
  toJson : (Document.ofJson value).toJson = .ok read

theorem ReadsBack.readAs (h : ReadsBack 1 value) : ReadAs value value :=
  ⟨h.legible, h.toJson_ofJson⟩

/-- What is read where a list of members was written. -/
theorem toJsonMembers_of_readAs (h : List.Forall₂ (fun m w => m.1 = w.1 ∧ ReadAs m.2 w.2) members
    written) : LegibleMembers 1 members ∧
      Document.toJsonMembers (Document.ofJsonMembers members) = .ok written := by
  induction h with
  | nil => exact ⟨trivial, rfl⟩
  | @cons m w members written hFirst hRest ih =>
    refine ⟨⟨hFirst.2.legible, ih.1⟩, ?_⟩
    rw [Document.ofJsonMembers, Document.toJsonMembers, hFirst.1, hFirst.2.toJson, ih.2]
    rfl

/-- A record is read member by member. -/
theorem parse_recordText (h : List.Forall₂ (fun m w => m.1 = w.1 ∧ ReadAs m.2 w.2) members
    written) : parse (recordText members) = .ok (ofMembers written) := by
  obtain ⟨hLegible, hMembers⟩ := toJsonMembers_of_readAs h
  have hObject : Legible 0 (.object members) := ⟨by decide, hLegible⟩
  rw [recordText_eq, parse_text hObject, Document.ofJson, Document.toJson, hMembers]
  rfl

theorem present_readAs {entries read : Keyed (Option Json)}
    (h : List.Forall₂ (fun e r => e.1 = r.1 ∧ Option.Rel ReadAs e.2 r.2) entries read) :
    List.Forall₂ (fun m w => m.1 = w.1 ∧ ReadAs m.2 w.2) (present entries) (present read) := by
  induction h with
  | nil => exact .nil
  | @cons e r entries read hFirst hRest ih =>
    obtain ⟨key, v⟩ := e
    obtain ⟨other, w⟩ := r
    obtain ⟨hKey, hRead⟩ := hFirst
    cases hRead with
    | none => exact ih
    | some hRead => exact .cons ⟨hKey, hRead⟩ ih

/-- The text is read as an object with these members and no others; a member without a value is not
there. -/
def IsRecord (text : String) (entries : Keyed (Option Json)) : Prop :=
  ∃ value, parse text = .ok value ∧ ∀ key, value.get? key = (Keyed.find? entries key).join

/-- A member without a value may as well be left out of the list. -/
theorem IsRecord.of_concat_none {text : String} {entries : Keyed (Option Json)} (key : String)
    (h : IsRecord text (entries ++ [(key, none)])) : IsRecord text entries := by
  have hFound : ∀ (entries : Keyed (Option Json)) (other : String),
      (Keyed.find? (entries ++ [(key, none)]) other).join = (Keyed.find? entries other).join := by
    intro entries other
    induction entries with
    | nil => by_cases hSame : key = other <;> simp [Keyed.find?, hSame]
    | cons entry entries ih => by_cases hSame : entry.1 = other <;> simp_all [Keyed.find?]
  obtain ⟨value, hParse, hMembers⟩ := h
  exact ⟨value, hParse, fun other => (hMembers other).trans (hFound entries other)⟩

/-- A record is read as the record of what is read for each of its members. -/
theorem isRecord_of_readAs {entries read : Keyed (Option Json)} (hDistinct : read.Distinct)
    (h : List.Forall₂ (fun e r => e.1 = r.1 ∧ Option.Rel ReadAs e.2 r.2) entries read) :
    IsRecord (recordText (present entries)) read :=
  ⟨_, parse_recordText (present_readAs h), get?_ofPresent hDistinct⟩

theorem rel_readAs {member : Option Json} (h : ∀ v ∈ member, ReadsBack 1 v) :
    Option.Rel ReadAs member member := by
  cases member with
  | none => exact .none
  | some v => exact .some (h v rfl).readAs

/-- A record whose members read back is read as the record. -/
theorem isRecord_recordText {entries : Keyed (Option Json)} (hDistinct : entries.Distinct)
    (h : ∀ entry ∈ entries, ∀ v ∈ entry.2, ReadsBack 1 v) :
    IsRecord (recordText (present entries)) entries :=
  isRecord_of_readAs hDistinct <| List.forall₂_same.mpr fun entry hMem =>
    ⟨rfl, rel_readAs (h entry hMem)⟩

end Json
end EditorBridge
