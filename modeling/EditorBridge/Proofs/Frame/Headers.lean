import EditorBridge.Proofs.Frame.Cuts
import EditorBridge.Proofs.Text.Numerals
/-!
Header blocks as others write them: any lines, one of which may give the length. What becomes of a
block is decided by the first line whose name is Content-Length, and by nothing else in the block.
The block ends with its first blank line, since no line of it is empty, so a faulty block is
reported before anything behind it is looked at.
-/
namespace EditorBridge.Frame

/-- A line of a header block: it is not empty, and nothing in it ends a line. -/
structure IsLine (line : List Char) : Prop where
  nonempty : line ≠ []
  no_return : '\r' ∉ line
  no_feed : '\n' ∉ line

def lineBreak : List Char := ['\r', '\n']

/-- The lines of a block one after the other. -/
def block (header : List (List Char)) : List Char := lineBreak.intercalate header

variable {header header' : List (List Char)} {line name value behind payload : List Char}

theorem block_cons_cons (line next : List Char) (header : List (List Char)) :
    block (line :: next :: header) = line ++ lineBreak ++ block (next :: header) :=
  List.intercalate_cons_cons

theorem block_singleton (line : List Char) : block [line] = line := List.intercalate_singleton

/-- A line ends with the first line break behind it. -/
theorem lines_append (h : '\r' ∉ line) (rest : List Char) :
    lines (line ++ lineBreak ++ rest) = line :: lines rest := by
  induction line with
  | nil => rfl
  | cons c line ih =>
    simp only [List.mem_cons, not_or] at h
    rw [List.append_assoc, List.cons_append, lines]
    · rw [← List.append_assoc, ih h.2]
    · rintro rest rfl
      exact absurd rfl h.1

theorem lines_block (hSome : header ≠ []) (h : ∀ line ∈ header, IsLine line) :
    lines (block header) = header := by
  induction header with
  | nil => exact absurd rfl hSome
  | cons line header ih =>
    obtain ⟨hLine, hRest⟩ := List.forall_mem_cons.mp h
    cases header with
    | nil => rw [block_singleton, lines_of_not_mem hLine.no_return]
    | cons next header =>
      rw [block_cons_cons, lines_append hLine.no_return, ih (by simp) hRest]

/-- A line break that a line follows is no part of a blank line. -/
theorem splitHeader_lineBreak (seen : List Char) (h : IsLine line) (rest : List Char) :
    splitHeader seen (lineBreak ++ (line ++ rest)) =
      splitHeader (lineBreak.reverse ++ seen) (line ++ rest) := by
  obtain ⟨c, line, rfl⟩ := List.exists_cons_of_ne_nil h.nonempty
  have hFirst : c ≠ '\r' := by
    rintro rfl
    exact h.no_return List.mem_cons_self
  show splitHeader seen ('\r' :: '\n' :: c :: (line ++ rest)) = _
  rw [splitHeader, splitHeader]
  · rfl
  · intro _ hReturn
    simp at hReturn
  · rintro _ - hNext
    simp only [List.cons.injEq] at hNext
    exact hFirst hNext.2.1

theorem splitHeader_block_append (hSome : header ≠ []) (h : ∀ line ∈ header, IsLine line)
    (seen : List Char) :
    splitHeader seen (block header ++ (blankLine ++ behind)) =
      some (seen.reverse ++ block header, behind) := by
  induction header generalizing seen with
  | nil => exact absurd rfl hSome
  | cons line header ih =>
    obtain ⟨hLine, hRest⟩ := List.forall_mem_cons.mp h
    cases header with
    | nil =>
      rw [block_singleton, splitHeader_append hLine.no_return]
      simp [blankLine, splitHeader]
    | cons next header =>
      have hNext : IsLine next := hRest next List.mem_cons_self
      obtain ⟨more, hMore⟩ : ∃ more, block (next :: header) ++ (blankLine ++ behind) =
          next ++ more := by
        cases header with
        | nil => exact ⟨blankLine ++ behind, by rw [block_singleton]⟩
        | cons other header =>
          exact ⟨lineBreak ++ block (other :: header) ++ (blankLine ++ behind), by
            simp only [block_cons_cons, List.append_assoc]⟩
      calc splitHeader seen (block (line :: next :: header) ++ (blankLine ++ behind))
          = splitHeader seen (line ++ (lineBreak ++ (next ++ more))) := by
            rw [block_cons_cons, ← hMore]
            simp only [List.append_assoc]
        _ = splitHeader (lineBreak.reverse ++ (line.reverse ++ seen)) (next ++ more) := by
            rw [splitHeader_append hLine.no_return, splitHeader_lineBreak _ hNext]
        _ = some (seen.reverse ++ block (line :: next :: header), behind) := by
            rw [← hMore, ih (by simp) hRest, block_cons_cons]
            simp only [List.reverse_append, List.reverse_reverse, List.append_assoc]

/-- The first blank line is the one behind the block, whatever follows. -/
theorem block_ends (hSome : header ≠ []) (h : ∀ line ∈ header, IsLine line) (behind : List Char) :
    Block (block header ++ blankLine ++ behind) (block header) behind := by
  rw [← splitHeader_eq_some_iff, List.append_assoc]
  exact splitHeader_block_append hSome h []

/-- Equal but for the case of letters. -/
def SameLetters (s t : List Char) : Prop := s.map Char.toLower = t.map Char.toLower

/-- The line gives a length, written as `value`: before its first colon stands Content-Length in any
letter case, and behind it the value, both with any space around them. -/
def GivesLength (line value : List Char) : Prop :=
  ∃ name given, line = name ++ ':' :: given ∧ ':' ∉ name ∧
    SameLetters (Text.trimChars name) "Content-Length".toList ∧ value = Text.trimChars given

/-- The first line that gives a length gives `value`. -/
def Decides (header : List (List Char)) (value : List Char) : Prop :=
  ∃ before line after, header = before ++ line :: after ∧ GivesLength line value ∧
    ∀ other ∈ before, ∀ value', ¬GivesLength other value'

theorem splitColon_eq_some_iff {given : List Char} :
    splitColon line = some (name, given) ↔ line = name ++ ':' :: given ∧ ':' ∉ name := by
  fun_induction splitColon line generalizing name with
  | case1 => simp
  | case2 rest =>
    cases name with
    | nil => simp [eq_comm]
    | cons c name =>
      simp only [Option.some.injEq, Prod.mk.injEq, List.cons_append, List.cons.injEq,
        List.mem_cons, not_or]
      constructor
      · rintro ⟨h, -⟩
        cases h
      · rintro ⟨⟨rfl, -⟩, hOther, -⟩
        exact absurd rfl hOther
  | case3 c rest hOther ih =>
    rw [Option.map_eq_some_iff]
    constructor
    · rintro ⟨⟨part, given'⟩, hSplit, hParts⟩
      obtain ⟨rfl, rfl⟩ := Prod.mk.inj hParts
      obtain ⟨rfl, hName⟩ := ih.mp hSplit
      have hColon : ':' ≠ c := fun h => hOther h.symm
      exact ⟨rfl, by simp [hColon, hName]⟩
    · rintro ⟨hLine, hName⟩
      cases name with
      | nil => exact absurd (List.cons.inj hLine).1 hOther
      | cons d name =>
        obtain ⟨rfl, hRest⟩ := List.cons.inj hLine
        simp only [List.mem_cons, not_or] at hName
        exact ⟨(name, given), ih.mpr ⟨hRest, hName.2⟩, rfl⟩

theorem lengthName_eq : lengthName = "Content-Length".toList.map Char.toLower := by decide

theorem lengthValue?_eq_some_iff : lengthValue? line = some value ↔ GivesLength line value := by
  unfold lengthValue?
  split
  · rename_i hNone
    refine iff_of_false nofun ?_
    rintro ⟨name, given, hLine, hName, -⟩
    rw [splitColon_eq_some_iff.mpr ⟨hLine, hName⟩] at hNone
    cases hNone
  · rename_i name given hSplit
    obtain ⟨hLine, hName⟩ := splitColon_eq_some_iff.mp hSplit
    rw [Option.ite_none_right_eq_some, lengthName_eq, Option.some.injEq]
    constructor
    · rintro ⟨hSame, hValue⟩
      exact ⟨name, given, hLine, hName, hSame, hValue.symm⟩
    · rintro ⟨name', given', hLine', hName', hSame, hValue⟩
      have hSplit' := splitColon_eq_some_iff.mpr ⟨hLine', hName'⟩
      obtain ⟨rfl, rfl⟩ := Prod.mk.inj (Option.some.inj (hSplit.symm.trans hSplit'))
      exact ⟨hSame, hValue.symm⟩

theorem lengthValue?_eq_none_iff :
    lengthValue? line = none ↔ ∀ value, ¬GivesLength line value := by
  simp only [Option.eq_none_iff_forall_ne_some, ne_eq, lengthValue?_eq_some_iff]

theorem findSome?_lengthValue?_eq_some_iff :
    header.findSome? lengthValue? = some value ↔ Decides header value := by
  simp only [List.findSome?_eq_some_iff, lengthValue?_eq_some_iff, lengthValue?_eq_none_iff,
    Decides]

/-- What a header block says of the message behind it: its length, or what is wrong. -/
inductive Verdict (header : List (List Char)) : Except Fault Nat → Prop where
  | missing (hNone : ∀ line ∈ header, ∀ value, ¬GivesLength line value) :
      Verdict header (.error .missingLength)
  /-- The value is no numeral, or that of a number with more than 64 bits. -/
  | invalid {value : List Char} (hFirst : Decides header value)
      (hInvalid : ∀ n, Text.Numeral value n → maxLength < n) :
      Verdict header (.error (.invalidLength (String.ofList value)))
  | tooLarge {value : List Char} {n : Nat} (hFirst : Decides header value)
      (hNumeral : Text.Numeral value n) (hLarge : maxSize < n) (hBound : n ≤ maxLength) :
      Verdict header (.error (.tooLarge n))
  | length {value : List Char} {n : Nat} (hFirst : Decides header value)
      (hNumeral : Text.Numeral value n) (hSize : n ≤ maxSize) : Verdict header (.ok n)

theorem maxSize_le_maxLength : maxSize ≤ maxLength := by decide

theorem Decides.contentLength_eq (hLines : lines (block header) = header)
    (h : Decides header value) : contentLength (block header) = parseLength value := by
  rw [contentLength, hLines, findSome?_lengthValue?_eq_some_iff.mpr h]

theorem parseLength_of_numeral {n : Nat} (h : Text.Numeral value n) (hBound : n ≤ maxLength) :
    parseLength value = if maxSize < n then .error (.tooLarge n) else .ok n := by
  simp only [parseLength, Text.boundedNat?_eq_some_iff.mpr ⟨h, hBound⟩]

theorem Verdict.contentLength_eq {r : Except Fault Nat} (hLines : lines (block header) = header)
    (h : Verdict header r) : contentLength (block header) = r := by
  cases h with
  | missing hNone =>
    have hSearch : header.findSome? lengthValue? = none :=
      List.findSome?_eq_none_iff.mpr fun line hLine =>
        lengthValue?_eq_none_iff.mpr (hNone line hLine)
    rw [contentLength, hLines, hSearch]
  | invalid hFirst hInvalid =>
    rw [hFirst.contentLength_eq hLines]
    simp only [parseLength, Text.boundedNat?_eq_none_iff.mpr hInvalid]
  | tooLarge hFirst hNumeral hLarge hBound =>
    rw [hFirst.contentLength_eq hLines, parseLength_of_numeral hNumeral hBound, if_pos hLarge]
  | length hFirst hNumeral hSize =>
    rw [hFirst.contentLength_eq hLines,
      parseLength_of_numeral hNumeral (Nat.le_trans hSize maxSize_le_maxLength),
      if_neg (Nat.not_lt.mpr hSize)]

theorem exists_verdict (header : List (List Char)) : ∃ r, Verdict header r := by
  cases hSearch : header.findSome? lengthValue? with
  | none =>
    have hNone := List.findSome?_eq_none_iff.mp hSearch
    exact ⟨_, .missing fun line hLine => lengthValue?_eq_none_iff.mp (hNone line hLine)⟩
  | some value =>
    have hFirst := findSome?_lengthValue?_eq_some_iff.mp hSearch
    cases hRead : Text.boundedNat? maxLength value with
    | none => exact ⟨_, .invalid hFirst (Text.boundedNat?_eq_none_iff.mp hRead)⟩
    | some n =>
      obtain ⟨hNumeral, hBound⟩ := Text.boundedNat?_eq_some_iff.mp hRead
      by_cases hLarge : maxSize < n
      · exact ⟨_, .tooLarge hFirst hNumeral hLarge hBound⟩
      · exact ⟨_, .length hFirst hNumeral (Nat.not_lt.mp hLarge)⟩

/-- The verdict is what the block is read as. -/
theorem verdict_iff {r : Except Fault Nat} (hLines : lines (block header) = header) :
    Verdict header r ↔ contentLength (block header) = r := by
  refine ⟨Verdict.contentLength_eq hLines, ?_⟩
  rintro rfl
  obtain ⟨r, hVerdict⟩ := exists_verdict header
  rw [hVerdict.contentLength_eq hLines]
  exact hVerdict

/-- The value that decides is all that the verdict depends on. -/
theorem Verdict.of_decides {r : Except Fault Nat}
    (hSame : ∀ value, Decides header value ↔ Decides header' value) (h : Verdict header r) :
    Verdict header' r := by
  cases h with
  | missing hNone =>
    refine .missing fun line hLine => ?_
    have hSearch : header'.findSome? lengthValue? = none := by
      rw [Option.eq_none_iff_forall_ne_some]
      intro value hSome
      obtain ⟨before, given, after, rfl, hGives, -⟩ :=
        (hSame value).mpr (findSome?_lengthValue?_eq_some_iff.mp hSome)
      exact hNone given (by simp) value hGives
    exact lengthValue?_eq_none_iff.mp (List.findSome?_eq_none_iff.mp hSearch line hLine)
  | invalid hFirst hInvalid => exact .invalid ((hSame _).mp hFirst) hInvalid
  | tooLarge hFirst hNumeral hLarge hBound =>
    exact .tooLarge ((hSame _).mp hFirst) hNumeral hLarge hBound
  | length hFirst hNumeral hSize => exact .length ((hSame _).mp hFirst) hNumeral hSize

/-- A text that is one whole message and nothing else is received as that, however it is cut. -/
theorem receptions_of_message {text : List Char} {pieces : List (List Char)}
    (hPieces : pieces.flatten = text) (h : Fronts text (.message payload [])) (n : Nat) :
    Reader.receptions (n + 2) .empty pieces =
      ([.message (String.ofList payload), .exhausted], .empty) := by
  have hContent : content ([] ++ pieces.flatten) = ⟨[String.ofList payload], [], none⟩ := by
    rw [List.nil_append, hPieces, content_of_message h.front_eq]
    rfl
  have hEmpty : front [] = .incomplete := rfl
  obtain ⟨first, overtaken, hDelivers⟩ := Reader.exists_delivers hEmpty pieces
  obtain rfl : overtaken = [] := hDelivers.overtaken_nil (by rw [hContent])
  have hMessages := hDelivers.messages
  rw [hContent, List.append_nil] at hMessages
  obtain rfl : [String.ofList payload] = first := hMessages
  have hReceipts := hDelivers.receipts (n + 2)
  have hEnd : (content ([] ++ pieces.flatten)).messages.length < n + 2 := by
    rw [hContent, List.length_singleton]
    omega
  have hReader := Reader.receptions_end hEmpty (by rw [hContent]) hEnd
  rw [hContent] at hReceipts hReader
  exact Prod.ext (by simpa [Content.ending, Reader.empty] using hReceipts) hReader

/-- A text that begins with a fault is received as that, however it is cut. -/
theorem receptions_of_fault {text : List Char} {pieces : List (List Char)} {fault : Fault}
    (hPieces : pieces.flatten = text) (h : Fronts text (.fault fault)) (n : Nat) :
    (Reader.receptions (n + 1) .empty pieces).1 = [.fault fault] := by
  have hContent : content ([] ++ pieces.flatten) = ⟨[], text, some fault⟩ := by
    rw [List.nil_append, hPieces, content_of_fault h.front_eq]
  have hEmpty : front [] = .incomplete := rfl
  obtain ⟨first, overtaken, hDelivers⟩ := Reader.exists_delivers hEmpty pieces
  have hMessages := hDelivers.messages
  rw [hContent] at hMessages
  obtain ⟨rfl, -⟩ := List.append_eq_nil_iff.mp hMessages.symm
  have hReceipts := hDelivers.receipts (n + 1)
  rw [hContent] at hReceipts
  simpa [Content.ending, Reader.empty] using hReceipts

/-- What stands at the front of a text that begins with a block is decided by the length that the
block gives and by what follows. -/
theorem front_block (hSome : header ≠ []) (hEach : ∀ line ∈ header, IsLine line)
    (hSome' : header' ≠ []) (hEach' : ∀ line ∈ header', IsLine line)
    (hSame : contentLength (block header) = contentLength (block header')) (behind : List Char) :
    front (block header ++ blankLine ++ behind) = front (block header' ++ blankLine ++ behind) := by
  have hSplit := splitHeader_eq_some_iff.mpr (block_ends hSome hEach behind)
  have hSplit' := splitHeader_eq_some_iff.mpr (block_ends hSome' hEach' behind)
  simp only [front, hSplit, hSplit', hSame]

/-- A header block of any lines has one verdict, and the verdict is what is received, however the
text is cut: with the length of what stands behind the blank line, exactly this, and nothing is
left; with a fault, this fault, whatever stands behind the blank line and even if nothing does. In
front of more text the same message is taken and the rest is left. Two blocks with the same deciding
value, or both without one, are treated alike, whatever their other lines. -/
theorem header_block_decides (hSome : header ≠ []) (hEach : ∀ line ∈ header, IsLine line) :
    (∃ r, ∀ r', Verdict header r' ↔ r' = r) ∧
    (∀ payload, Verdict header (.ok (byteSize payload)) →
      (∀ rest, front (block header ++ blankLine ++ (payload ++ rest)) = .message payload rest) ∧
      ∀ pieces, pieces.flatten = block header ++ blankLine ++ payload → ∀ n,
        Reader.receptions (n + 2) .empty pieces =
          ([.message (String.ofList payload), .exhausted], .empty)) ∧
    (∀ fault, Verdict header (.error fault) → ∀ behind,
      front (block header ++ blankLine ++ behind) = .fault fault ∧
      ∀ pieces, pieces.flatten = block header ++ blankLine ++ behind → ∀ n,
        (Reader.receptions (n + 1) .empty pieces).1 = [.fault fault]) ∧
    ∀ header', header' ≠ [] → (∀ line ∈ header', IsLine line) →
      (∀ value, Decides header value ↔ Decides header' value) → ∀ behind,
        front (block header ++ blankLine ++ behind) =
          front (block header' ++ blankLine ++ behind) := by
  have hVerdict (r : Except Fault Nat) := verdict_iff (r := r) (lines_block hSome hEach)
  refine ⟨⟨contentLength (block header), fun r => ?_⟩, fun payload hLength => ?_,
    fun fault hFault behind => ?_, fun header' hSome' hEach' hSame behind => ?_⟩
  · rw [hVerdict r, eq_comm]
  · have hFront (rest : List Char) :
        Fronts (block header ++ blankLine ++ (payload ++ rest)) (.message payload rest) :=
      .message (block_ends hSome hEach _) ((hVerdict _).mp hLength)
    refine ⟨fun rest => (hFront rest).front_eq, fun pieces hPieces n => ?_⟩
    have hWhole := hFront []
    rw [List.append_nil] at hWhole
    exact receptions_of_message hPieces hWhole n
  · have hFront : Fronts (block header ++ blankLine ++ behind) (.fault fault) :=
      .malformed (block_ends hSome hEach behind) ((hVerdict _).mp hFault)
    exact ⟨hFront.front_eq, fun pieces hPieces n => receptions_of_fault hPieces hFront n⟩
  · apply front_block hSome hEach hSome' hEach'
    have hOther := ((hVerdict _).mpr rfl).of_decides hSame
    exact (hOther.contentLength_eq (lines_block hSome' hEach')).symm

/-- A block with a line that has two colons, a length in odd spelling, and another length. -/
def notedHeader : List (List Char) :=
  ["X-Note: a: b".toList, "content-LENGTH : +0007\t".toList, "Content-Length: 99".toList]

theorem notedHeader_lines : ∀ line ∈ notedHeader, IsLine line := by
  have hDecided : ∀ line ∈ notedHeader, line ≠ [] ∧ '\r' ∉ line ∧ '\n' ∉ line := by decide
  intro line hLine
  obtain ⟨hNonempty, hReturn, hFeed⟩ := hDecided line hLine
  exact ⟨hNonempty, hReturn, hFeed⟩

/-- The second line decides, and the text is cut inside the blank line. -/
theorem header_block_decides_noted :
    Verdict notedHeader (.ok 7) ∧
    Reader.receptions 2 .empty
        [block notedHeader ++ ['\r', '\n', '\r'], '\n' :: "naïve!".toList] =
      ([.message "naïve!", .exhausted], .empty) := by
  have hVerdict : Verdict notedHeader (.ok 7) :=
    (verdict_iff (lines_block (by decide) notedHeader_lines)).mpr rfl
  obtain ⟨-, hMessage, -⟩ := header_block_decides (by decide) notedHeader_lines
  obtain ⟨-, hReceived⟩ := hMessage "naïve!".toList hVerdict
  exact ⟨hVerdict, hReceived _ (by decide) 0⟩

end EditorBridge.Frame
