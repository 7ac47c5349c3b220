import EditorBridge.Proofs.Path.Components
import EditorBridge.Uri.File
import EditorBridge.Uri.Reference
/-!
File URIs against the grammar of URI references. A path is written with some bytes escaped and the
others as they are, and the grammar reads what was written as far as it allows it. Both agree on all
bytes but four, which are left as they are and not allowed; so an absolute path has a file URI
exactly if it has none of these bytes.
-/
namespace EditorBridge.Uri

/-- The bytes of `[`, `]`, `^` and `|`. -/
def refusedBytes : List UInt8 := [0x5b, 0x5d, 0x5e, 0x7c]

/-- The URI that is written for an absolute path, whether the grammar allows it or not. -/
def fileText (p : Path) : String := "file://" ++ asciiText (pathBytes (names p))

def byteChar (b : UInt8) : Char := Char.ofNat b.toNat

variable {b : UInt8} {name bytes : List UInt8} {ns : List (List UInt8)} {p : Path}

theorem forall_byte {P : UInt8 → Prop} (h : ∀ n < 256, P (UInt8.ofNat n)) : ∀ b, P b := by
  intro b
  have hByte := h b.toNat b.toNat_lt
  rwa [UInt8.ofNat_toNat] at hByte

/-- What the grammar sees of a byte: an escape of two digits, a character of a path, or one of the
four. -/
theorem byte_cases : ∀ b : UInt8,
    (isPlain b = false ∧ isHexDigit (byteChar (upperHex (b / 16))) = true ∧
      isHexDigit (byteChar (upperHex (b % 16))) = true ∧ b ∉ refusedBytes) ∨
    (isPlain b = true ∧ isSegmentByte b = true ∧ isPathChar (byteChar b) = true ∧
      byteChar b ≠ '%' ∧ b ∉ refusedBytes) ∨
    (isPlain b = true ∧ isSegmentByte b = false ∧ isPathChar (byteChar b) = false ∧
      byteChar b ∉ ['%', '?', '#'] ∧ b ∈ refusedBytes) :=
  forall_byte (by decide +kernel)

/-- The four bytes are those that are left plain and not allowed. -/
theorem mem_refusedBytes_iff : b ∈ refusedBytes ↔ isPlain b = true ∧ isSegmentByte b = false := by
  rcases byte_cases b with ⟨hPlain, -, -, hOther⟩ | ⟨-, hSegment, -, -, hOther⟩ |
    ⟨hPlain, hSegment, -, -, hOne⟩
  · exact iff_of_false hOther (by simp [hPlain])
  · exact iff_of_false hOther (by simp [hSegment])
  · exact iff_of_true hOne ⟨hPlain, hSegment⟩

theorem passEscaped_cons {allowed : Char → Bool} {c : Char} (hPercent : c ≠ '%') (index : Nat)
    (rest : List Char) :
    passEscaped allowed index (c :: rest) =
      if allowed c then passEscaped allowed (index + 1) rest else .ok ⟨index, c :: rest⟩ := by
  rw [passEscaped] <;> simp [hPercent]

/-- A byte that is not one of the four is passed. -/
theorem passEscaped_escapeByte (h : b ∉ refusedBytes) (index : Nat) (rest : List Char) :
    passEscaped isPathChar index ((escapeByte b).map byteChar ++ rest) =
      passEscaped isPathChar (index + (escapeByte b).length) rest := by
  rcases byte_cases b with ⟨hPlain, hHigh, hLow, -⟩ | ⟨hPlain, -, hPath, hPercent, -⟩ |
    ⟨-, -, -, -, hOne⟩
  · have hMark : byteChar 0x25 = '%' := by decide
    simp [escapeByte, hPlain, hMark, passEscaped, hHigh, hLow]
  · simp [escapeByte, hPlain, passEscaped_cons hPercent, hPath]
  · exact absurd hOne h

/-- Before one of the four the reading stops. -/
theorem passEscaped_refused (h : b ∈ refusedBytes) (index : Nat) (rest : List Char) :
    passEscaped isPathChar index ((escapeByte b).map byteChar ++ rest) =
      .ok ⟨index, byteChar b :: rest⟩ := by
  rcases byte_cases b with ⟨-, -, -, hOther⟩ | ⟨-, -, -, -, hOther⟩ | ⟨hPlain, -, hPath, hMark, -⟩
  · exact absurd h hOther
  · exact absurd h hOther
  · have hPercent : byteChar b ≠ '%' := fun hEq => hMark (by simp [hEq])
    simp [escapeByte, hPlain, passEscaped_cons hPercent, hPath]

/-- How the grammar reads a part of a written path: to its end, or up to one of the four. -/
structure ReadsTo (bytes : List UInt8) (written : List UInt8) : Prop where
  passes : (∀ b ∈ bytes, b ∉ refusedBytes) → ∀ index rest,
    passEscaped isPathChar index (written.map byteChar ++ rest) =
      passEscaped isPathChar (index + written.length) rest
  stops : ∀ b ∈ bytes, b ∈ refusedBytes → ∀ index rest, ∃ place c after,
    passEscaped isPathChar index (written.map byteChar ++ rest) = .ok ⟨place, byteChar c :: after⟩ ∧
      c ∈ refusedBytes

theorem readsTo_nil : ReadsTo [] [] := ⟨fun _ _ _ => rfl, by simp⟩

theorem readsTo_byte (b : UInt8) : ReadsTo [b] (escapeByte b) where
  passes h := passEscaped_escapeByte (h b List.mem_cons_self)
  stops c hMem hRefused index rest := by
    obtain rfl := List.mem_singleton.mp hMem
    exact ⟨index, c, rest, passEscaped_refused hRefused index rest, hRefused⟩

theorem ReadsTo.append {first second written written' : List UInt8} (h : ReadsTo first written)
    (h' : ReadsTo second written') : ReadsTo (first ++ second) (written ++ written') where
  passes hAll index rest := by
    rw [List.map_append, List.append_assoc,
      h.passes (fun b hMem => hAll b (List.mem_append_left _ hMem)),
      h'.passes (fun b hMem => hAll b (List.mem_append_right _ hMem)), List.length_append,
      Nat.add_assoc]
  stops b hMem hRefused index rest := by
    rw [List.map_append, List.append_assoc]
    by_cases hFirst : ∃ c ∈ first, c ∈ refusedBytes
    · obtain ⟨c, hIn, hOne⟩ := hFirst
      exact h.stops c hIn hOne index _
    · have hNone : ∀ c ∈ first, c ∉ refusedBytes := fun c hIn hOne => hFirst ⟨c, hIn, hOne⟩
      have hSecond := (List.mem_append.mp hMem).resolve_left fun hIn => hNone b hIn hRefused
      rw [h.passes hNone]
      exact h'.stops b hSecond hRefused _ rest

theorem readsTo_name (name : List UInt8) : ReadsTo name (escapeName name) := by
  induction name with
  | nil => exact readsTo_nil
  | cons b name ih => exact (readsTo_byte b).append ih

theorem readsTo_separator : ReadsTo [] [Path.separator] := by
  refine ⟨fun _ index rest => ?_, by simp⟩
  have hSlash : byteChar Path.separator = '/' := by decide
  have hPath : isPathChar '/' = true := by decide
  simp [hSlash, passEscaped_cons, hPath]

theorem readsTo_pathBytes (ns : List (List UInt8)) : ReadsTo ns.flatten (pathBytes ns) := by
  have hNames : ReadsTo ns.flatten
      (ns.flatMap fun name => Path.separator :: escapeName name) := by
    induction ns with
    | nil => exact readsTo_nil
    | cons name ns ih => exact (readsTo_separator.append (readsTo_name name)).append ih
  cases ns with
  | nil => exact readsTo_separator
  | cons name ns => exact hNames

theorem pathBytes_cons (ns : List (List UInt8)) : ∃ rest, pathBytes ns = Path.separator :: rest := by
  cases ns with
  | nil => exact ⟨[], rfl⟩
  | cons name ns => exact ⟨_, rfl⟩

theorem fileText_toList (p : Path) :
    (fileText p).toList = "file://".toList ++ (pathBytes (names p)).map byteChar := by
  have hPath : (asciiText (pathBytes (names p))).toList = (pathBytes (names p)).map byteChar :=
    String.toList_ofList
  rw [fileText, String.toList_append, hPath]

/-- A path that begins with a slash is rooted. -/
theorem checkRooted_slash (index : Nat) (path : List Char) :
    checkRooted ⟨index, '/' :: path⟩ =
      passEscaped isPathChar index ('/' :: path) >>= checkTail := by
  simp [checkRooted]

/-- Nothing stands before a slash that could be an authority. -/
theorem checkAuthority_slash (index : Nat) (path : List Char) :
    checkAuthority ⟨index, '/' :: path⟩ =
      passEscaped isPathChar index ('/' :: path) >>= checkTail := by
  have hStops {allowed : Char → Bool} (h : allowed '/' = false) :
      passEscaped allowed index ('/' :: path) = .ok ⟨index, '/' :: path⟩ := by
    rw [passEscaped_cons (by decide), if_neg (by simp [h])]
  have hUser : passEscaped (fun c => isNameChar c || c == ':') index ('/' :: path) =
      .ok ⟨index, '/' :: path⟩ := hStops (by decide)
  have hHost : passHost ⟨index, '/' :: path⟩ = .ok ⟨index, '/' :: path⟩ := hStops (by decide)
  calc checkAuthority ⟨index, '/' :: path⟩
      = (passHost ⟨index, '/' :: path⟩ >>= fun host => checkRooted (passPort host)) := by
        rw [checkAuthority, hUser]
        exact if_pos rfl
    _ = checkRooted ⟨index, '/' :: path⟩ := by
        rw [hHost]
        rfl
    _ = passEscaped isPathChar index ('/' :: path) >>= checkTail := checkRooted_slash index path

/-- Behind an empty authority the path is read from its first slash. -/
theorem checkReference_fileText (p : Path) :
    checkReference (fileText p) =
      passEscaped isPathChar 7 ((pathBytes (names p)).map byteChar) >>= checkTail := by
  obtain ⟨rest, hPath⟩ := pathBytes_cons (names p)
  have hSlash : byteChar Path.separator = '/' := by decide
  rw [checkReference, fileText_toList, hPath, List.map_cons, hSlash]
  generalize rest.map byteChar = tail
  have hScheme : ("file://".toList ++ '/' :: tail).takeWhile isSchemeChar = "file".toList := rfl
  rw [hScheme]
  exact checkAuthority_slash 7 tail

/-- The grammar allows what is written exactly if no byte is one of the four. -/
theorem checkReference_fileText_iff (p : Path) :
    checkReference (fileText p) = .ok () ↔ ∀ b ∈ (names p).flatten, b ∉ refusedBytes := by
  have hReads := readsTo_pathBytes (names p)
  rw [checkReference_fileText, ← List.append_nil ((pathBytes (names p)).map byteChar)]
  constructor
  · intro hAllowed b hMem hRefused
    obtain ⟨place, c, after, hStop, hOne⟩ := hReads.stops b hMem hRefused 7 []
    rw [hStop] at hAllowed
    rcases byte_cases c with ⟨-, -, -, hOther⟩ | ⟨-, -, -, -, hOther⟩ | ⟨-, -, -, hMark, -⟩
    · exact hOther hOne
    · exact hOther hOne
    · simp only [List.mem_cons, List.not_mem_nil, or_false, not_or] at hMark
      simp [bind, Except.bind, checkTail, passMarked, hMark] at hAllowed
  · intro hNone
    rw [hReads.passes hNone]
    rfl

/-- Apart from separators, the pieces of a path hold all its bytes. -/
theorem mem_flatten_pieces (hOther : b ≠ Path.separator) :
    b ∈ (Path.pieces bytes).flatten ↔ b ∈ bytes := by
  induction bytes with
  | nil => simp [Path.pieces]
  | cons c bytes ih =>
    rw [Path.pieces]
    split
    · rename_i hSeparator
      simp [ih, hSeparator, hOther]
    · cases hPieces : Path.pieces bytes with
      | nil => simp [hPieces] at ih; simp [ih]
      | cons piece more => simp [← ih, hPieces]

/-- Apart from dots, a component has the bytes that it was made of. -/
theorem mem_componentName (hOther : b ≠ Path.dot) :
    b ∈ ((Path.component? name).map componentName).getD [] ↔ b ∈ name := by
  unfold Path.component?
  split
  · rename_i hNone
    rcases hNone with rfl | rfl <;> simp [hOther]
  · split
    · rename_i hParent
      simp [hParent, componentName, hOther]
    · simp [componentName]

theorem names_of_separator (rest : List UInt8) :
    names ⟨Path.separator :: rest⟩ =
      ((Path.pieces rest).filterMap Path.component?).map componentName := by
  simp [names, Path.components, Path.startComponent?]

/-- Apart from separators and dots, the names of an absolute path have all its bytes. -/
theorem mem_flatten_names (hAbsolute : p.isAbsolute = true) (hSeparator : b ≠ Path.separator)
    (hDot : b ≠ Path.dot) : b ∈ (names p).flatten ↔ b ∈ p.bytes := by
  obtain ⟨rest, rfl⟩ := Path.isAbsolute_iff.mp hAbsolute
  calc b ∈ (names ⟨Path.separator :: rest⟩).flatten
      ↔ ∃ piece ∈ Path.pieces rest, b ∈ ((Path.component? piece).map componentName).getD [] := by
        rw [names_of_separator, List.map_filterMap, List.mem_flatten]
        simp only [List.mem_filterMap]
        constructor
        · rintro ⟨written, ⟨piece, hPiece, hWritten⟩, hMem⟩
          exact ⟨piece, hPiece, by rwa [hWritten]⟩
        · rintro ⟨piece, hPiece, hMem⟩
          cases hWritten : (Path.component? piece).map componentName with
          | none => simp [hWritten] at hMem
          | some written => exact ⟨written, ⟨piece, hPiece, hWritten⟩, by rwa [hWritten] at hMem⟩
    _ ↔ b ∈ (Path.pieces rest).flatten := by
        simp only [mem_componentName hDot, List.mem_flatten]
    _ ↔ b ∈ Path.separator :: rest := by
        rw [mem_flatten_pieces hSeparator, List.mem_cons, or_iff_right hSeparator]

/-- The path begins with a slash and has none of the four bytes. -/
structure Nameable (p : Path) : Prop where
  isAbsolute : p.isAbsolute = true
  allowed : ∀ b ∈ p.bytes, b ∉ refusedBytes

theorem ne_of_mem_refusedBytes : ∀ b ∈ refusedBytes, b ≠ Path.separator ∧ b ≠ Path.dot := by
  simp [refusedBytes, Path.separator, Path.dot]

/-- The grammar allows the URI that is written for an absolute path if no byte is one of the
four. -/
theorem checkReference_iff_nameable (hAbsolute : p.isAbsolute = true) :
    checkReference (fileText p) = .ok () ↔ Nameable p := by
  have hMem (b : UInt8) (hRefused : b ∈ refusedBytes) :
      b ∈ (names p).flatten ↔ b ∈ p.bytes :=
    have hOther := ne_of_mem_refusedBytes b hRefused
    mem_flatten_names hAbsolute hOther.1 hOther.2
  rw [checkReference_fileText_iff]
  refine ⟨fun h => ⟨hAbsolute, fun b hByte hRefused => ?_⟩, fun h b hByte hRefused => ?_⟩
  · exact h b ((hMem b hRefused).mpr hByte) hRefused
  · exact h.allowed b ((hMem b hRefused).mp hByte) hRefused

/-- The file URI of a path is what is written for it, if the grammar allows that. -/
theorem ofPath?_eq_some_iff {uri : String} :
    ofPath? p = some uri ↔
      p.isAbsolute = true ∧ uri = fileText p ∧ checkReference uri = .ok () := by
  have hByte (b : UInt8) : (!isPlain b || isSegmentByte b) = true ↔ b ∉ refusedBytes := by
    rw [mem_refusedBytes_iff]
    cases isPlain b <;> cases isSegmentByte b <;> simp
  have hAll : ((names p).all fun name => name.all fun b => !isPlain b || isSegmentByte b) = true ↔
      checkReference (fileText p) = .ok () := by
    rw [checkReference_fileText_iff]
    simp only [List.all_eq_true, hByte, List.mem_flatten]
    exact ⟨fun h b ⟨name, hName, hMem⟩ => h name hName b hMem,
      fun h name hName b hMem => h b ⟨name, hName, hMem⟩⟩
  rw [ofPath?, Option.ite_none_right_eq_some, hAll, Option.some.injEq]
  constructor
  · rintro ⟨⟨hAbsolute, hAllowed⟩, rfl⟩
    exact ⟨hAbsolute, rfl, hAllowed⟩
  · rintro ⟨hAbsolute, rfl, hAllowed⟩
    exact ⟨⟨hAbsolute, hAllowed⟩, rfl⟩

theorem ofPath?_isSome_iff : (∃ uri, ofPath? p = some uri) ↔ Nameable p := by
  simp only [ofPath?_eq_some_iff]
  constructor
  · rintro ⟨_, hAbsolute, rfl, hAllowed⟩
    exact (checkReference_iff_nameable hAbsolute).mp hAllowed
  · exact fun h => ⟨_, h.isAbsolute, rfl, (checkReference_iff_nameable h.isAbsolute).mpr h⟩

end EditorBridge.Uri
