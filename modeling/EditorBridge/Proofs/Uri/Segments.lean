import EditorBridge.Json.Parser
import EditorBridge.Proofs.Uri.File
import Mathlib.Data.List.Basic
/-!
Reading a file URI back. Between the slashes of its path stand the names of the file, and taking the
escapes out of them gives their bytes. So two paths have the same URI exactly if they have the same
components.
-/
namespace EditorBridge.Uri

/-- The path of a URI, behind its scheme and its authority and in front of query and fragment. -/
def pathOf (uri : String) : List Char :=
  let behindScheme := (uri.toList.dropWhile (· ≠ ':')).drop 1
  let behindAuthority := match behindScheme with
    | '/' :: '/' :: rest => rest.dropWhile (· ∉ ['/', '?', '#'])
    | text => text
  behindAuthority.takeWhile (· ∉ ['?', '#'])

def segments (uri : String) : List (List Char) := (pathOf uri).splitOn '/'

/-- The bytes that a segment stands for. A percent sign without two digits stands for itself. -/
def unescape : List Char → List UInt8
  | '%' :: a :: b :: rest =>
    match Document.hexValue? a, Document.hexValue? b with
    | some high, some low => UInt8.ofNat (16 * high + low) :: unescape rest
    | _, _ => Utf8.encodeChar '%' ++ unescape (a :: b :: rest)
  | c :: rest => Utf8.encodeChar c ++ unescape rest
  | [] => []

/-- What stands between the separators of a path, but for empty pieces and single dots. -/
def ownNames (p : Path) : List (List UInt8) :=
  (p.bytes.splitOn Path.separator).filter (· ∉ [[], [Path.dot]])

variable {p q : Path} {name bytes : List UInt8} {ns : List (List UInt8)} {c : Path.Component}

theorem componentName_of_component? (h : Path.component? name = some c) :
    componentName c = name := by
  unfold Path.component? at h
  split at h
  · cases h
  · split at h <;> cases h
    · rename_i hParent
      exact hParent.symm
    · rfl

theorem component?_componentName (h : c ∈ ns.filterMap Path.component?) :
    Path.component? (componentName c) = some c := by
  obtain ⟨name, -, hName⟩ := List.mem_filterMap.mp h
  rw [componentName_of_component? hName, hName]

/-- Apart from empty pieces and single dots, every piece is the name of its component. -/
theorem map_componentName (ns : List (List UInt8)) :
    (ns.filterMap Path.component?).map componentName = ns.filter (· ∉ [[], [Path.dot]]) := by
  rw [List.map_filterMap, ← List.filterMap_eq_filter]
  refine List.filterMap_congr fun name _ => ?_
  cases hComponent : Path.component? name with
  | none => simp_all [Path.component?_eq_none_iff, Option.guard]
  | some c =>
    have hSome : ¬ Path.component? name = none := by simp [hComponent]
    rw [Path.component?_eq_none_iff] at hSome
    simp [componentName_of_component? hComponent, Option.guard, hSome]

/-- The names that are written in the URI of an absolute path are the pieces of its own text. -/
theorem names_eq_ownNames (h : p.isAbsolute = true) : names p = ownNames p := by
  obtain ⟨rest, rfl⟩ := Path.isAbsolute_iff.mp h
  have hSplit := List.splitOn_append_cons_self_of_not_mem
    (List.not_mem_nil (a := Path.separator)) rest
  rw [List.nil_append] at hSplit
  rw [names_of_separator, map_componentName, ownNames, Path.pieces_eq_splitOn, hSplit]
  simp

theorem components_of_absolute (h : p.isAbsolute = true) :
    p.components = .root :: (names p).filterMap Path.component? := by
  obtain ⟨rest, rfl⟩ := Path.isAbsolute_iff.mp h
  have hBack : ((Path.pieces rest).filterMap Path.component?).filterMap
      (Path.component? ∘ componentName) = (Path.pieces rest).filterMap Path.component? :=
    (List.filterMap_congr fun c hMem => component?_componentName hMem).trans List.filterMap_some
  rw [names_of_separator, List.filterMap_map, hBack]
  simp [Path.components, Path.startComponent?]

/-- The components of an absolute path are its root and what its names stand for. -/
theorem components_eq_iff (hFirst : p.isAbsolute = true) (hSecond : q.isAbsolute = true) :
    p.components = q.components ↔ names p = names q := by
  constructor
  · intro hSame
    rw [names, names, hSame]
  · intro hSame
    rw [components_of_absolute hFirst, components_of_absolute hSecond, hSame]

/-- A byte is written as its two digits, or as a character that is its own text. -/
theorem byte_written : ∀ b : UInt8,
    (isPlain b = false ∧
      Document.hexValue? (byteChar (upperHex (b / 16))) = some (b.toNat / 16) ∧
      Document.hexValue? (byteChar (upperHex (b % 16))) = some (b.toNat % 16)) ∨
    (isPlain b = true ∧ byteChar b ≠ '%' ∧ byteChar b ∉ ['/', '?', '#'] ∧
      Utf8.encodeChar (byteChar b) = [b]) :=
  forall_byte (by decide +kernel)

theorem digit_parts_nothing {c : Char} {value : Nat} (h : Document.hexValue? c = some value) :
    c ∉ ['/', '?', '#'] := by
  intro hMem
  rcases List.mem_cons.mp hMem with rfl | hMem
  · cases h
  · rcases List.mem_pair.mp hMem with rfl | rfl <;> cases h

/-- No byte is written as what parts a URI. -/
theorem byte_parts_nothing (b : UInt8) :
    ∀ c ∈ (escapeByte b).map byteChar, c ∉ ['/', '?', '#'] := by
  rcases byte_written b with ⟨hPlain, hHigh, hLow⟩ | ⟨hPlain, -, hOther, -⟩
  · have hMark : byteChar 0x25 = '%' := by decide
    have hFirst := digit_parts_nothing hHigh
    have hSecond := digit_parts_nothing hLow
    simpa [escapeByte, hPlain, hMark] using And.intro hFirst hSecond
  · simpa [escapeByte, hPlain] using hOther

theorem unescape_cons {c : Char} (hPercent : c ≠ '%') (rest : List Char) :
    unescape (c :: rest) = Utf8.encodeChar c ++ unescape rest := by
  rw [unescape]
  simp [hPercent]

theorem unescape_escapeByte (b : UInt8) (rest : List Char) :
    unescape ((escapeByte b).map byteChar ++ rest) = b :: unescape rest := by
  rcases byte_written b with ⟨hPlain, hHigh, hLow⟩ | ⟨hPlain, hPercent, -, hText⟩
  · have hMark : byteChar 0x25 = '%' := by decide
    simp [escapeByte, hPlain, hMark, unescape, hHigh, hLow, Nat.div_add_mod]
  · simp [escapeByte, hPlain, unescape_cons hPercent, hText]

theorem unescape_escapeName (name : List UInt8) :
    unescape ((escapeName name).map byteChar) = name := by
  induction name with
  | nil => rfl
  | cons b name ih =>
    have hWritten : escapeName (b :: name) = escapeByte b ++ escapeName name := rfl
    rw [hWritten, List.map_append, unescape_escapeByte, ih]

theorem escapeName_parts_nothing {name : List UInt8} :
    ∀ c ∈ (escapeName name).map byteChar, c ∉ ['/', '?', '#'] := by
  intro c hMem
  obtain ⟨b, hByte, rfl⟩ := List.mem_map.mp hMem
  obtain ⟨a, -, hWritten⟩ := List.mem_flatMap.mp hByte
  exact byte_parts_nothing a _ (List.mem_map_of_mem hWritten)

theorem intercalate_cons (c : Char) (text : List Char) (texts : List (List Char)) :
    [c].intercalate (text :: texts) = text ++ texts.flatMap (c :: ·) := by
  induction texts generalizing text with
  | nil => simp
  | cons other texts ih => rw [List.intercalate_cons_cons, ih]; simp

/-- A slash stands in front of every name, and behind the root alone stands nothing. -/
theorem splitOn_pathBytes (ns : List (List UInt8)) :
    ((pathBytes ns).map byteChar).splitOn '/' =
      [] :: if ns = [] then [[]] else ns.map fun name => (escapeName name).map byteChar := by
  have hSlash : byteChar Path.separator = '/' := by decide
  cases ns with
  | nil => rfl
  | cons name ns =>
    have hPath : (pathBytes (name :: ns)).map byteChar = ['/'].intercalate
        ([] :: (name :: ns).map fun name => (escapeName name).map byteChar) := by
      have hNames : pathBytes (name :: ns) =
          (name :: ns).flatMap fun name => Path.separator :: escapeName name := rfl
      rw [intercalate_cons, hNames, List.map_flatMap, List.flatMap_map]
      simp [hSlash]
    rw [hPath, List.splitOn_intercalate, if_neg (List.cons_ne_nil name ns)]
    · intro segment hMem hIn
      rcases List.mem_cons.mp hMem with rfl | hName
      · cases hIn
      · obtain ⟨name, -, rfl⟩ := List.mem_map.mp hName
        exact escapeName_parts_nothing '/' hIn (by simp)
    · simp

theorem pathBytes_parts_nothing (ns : List (List UInt8)) :
    ∀ c ∈ (pathBytes ns).map byteChar, c ∉ ['?', '#'] := by
  have hSlash : byteChar Path.separator ∉ ['?', '#'] := by decide
  intro c hMem
  obtain ⟨b, hByte, rfl⟩ := List.mem_map.mp hMem
  cases ns with
  | nil =>
    obtain rfl := List.mem_singleton.mp hByte
    exact hSlash
  | cons first ns =>
    obtain ⟨name, -, hWritten⟩ := List.mem_flatMap.mp hByte
    rcases List.mem_cons.mp hWritten with rfl | hName
    · exact hSlash
    · have hOther := escapeName_parts_nothing _ (List.mem_map_of_mem hName)
      exact fun hMark => hOther (List.mem_cons_of_mem _ hMark)

/-- Behind its scheme and an empty authority a file URI is a path and nothing else. -/
theorem pathOf_fileText (p : Path) : pathOf (fileText p) = (pathBytes (names p)).map byteChar := by
  have hAll := pathBytes_parts_nothing (names p)
  obtain ⟨rest, hPath⟩ := pathBytes_cons (names p)
  have hSlash : byteChar Path.separator = '/' := by decide
  rw [hPath, List.map_cons, hSlash] at hAll
  rw [pathOf, fileText_toList, hPath, List.map_cons, hSlash]
  generalize rest.map byteChar = tail at *
  have hScheme : (("file://".toList ++ '/' :: tail).dropWhile (· ≠ ':')).drop 1 =
      '/' :: '/' :: '/' :: tail := rfl
  rw [hScheme]
  exact List.takeWhile_eq_self_iff.mpr fun c hMem => decide_eq_true (hAll c hMem)

/-- Taking the escapes out of the segments of a file URI gives the names of its path. -/
theorem unescape_segments (p : Path) :
    (segments (fileText p)).map unescape = [] :: if names p = [] then [[]] else names p := by
  have hRead : (unescape ∘ fun name => (escapeName name).map byteChar) = id :=
    funext unescape_escapeName
  rw [segments, pathOf_fileText, splitOn_pathBytes]
  by_cases hNames : names p = []
  · simp [hNames, unescape]
  · simp [hNames, unescape, hRead]

theorem nil_not_mem_names (h : p.isAbsolute = true) : [] ∉ names p := by
  rw [names_eq_ownNames h]
  simp [ownNames]

/-- Paths that are written alike have the same names. -/
theorem names_eq_of_fileText_eq (hFirst : p.isAbsolute = true) (hSecond : q.isAbsolute = true)
    (hSame : fileText p = fileText q) : names p = names q := by
  have hRead := unescape_segments p
  rw [hSame, unescape_segments q, List.cons_inj_right] at hRead
  by_cases hNames : names p = []
  · by_cases hOthers : names q = []
    · rw [hNames, hOthers]
    · rw [if_pos hNames, if_neg hOthers] at hRead
      exact absurd (hRead ▸ List.mem_singleton_self []) (nil_not_mem_names hSecond)
  · by_cases hOthers : names q = []
    · rw [if_neg hNames, if_pos hOthers] at hRead
      exact absurd (hRead ▸ List.mem_singleton_self []) (nil_not_mem_names hFirst)
    · rw [if_neg hNames, if_neg hOthers] at hRead
      exact hRead.symm

theorem fileText_eq_iff (hFirst : p.isAbsolute = true) (hSecond : q.isAbsolute = true) :
    fileText p = fileText q ↔ p.components = q.components := by
  rw [components_eq_iff hFirst hSecond]
  refine ⟨names_eq_of_fileText_eq hFirst hSecond, fun hSame => ?_⟩
  rw [fileText, fileText, hSame]

end EditorBridge.Uri
