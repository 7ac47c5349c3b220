import EditorBridge.Lsp.Params
import EditorBridge.Proofs.Uri.Segments
/-!
The URIs by which a client names files. A path has one exactly if it is absolute and has none of four
bytes; two paths that have one have the same one exactly if they have the same components, and the
components can be read off it.
-/
namespace EditorBridge.Lsp

variable {path : Path}

theorem fileUri_eq_ok_iff {uri : String} :
    fileUri path = .ok uri ↔ Uri.ofPath? path = some uri := by
  unfold fileUri
  cases Uri.ofPath? path <;> simp

theorem fileUri_named_iff : (∃ uri, fileUri path = .ok uri) ↔ Uri.Nameable path := by
  simp only [fileUri_eq_ok_iff, Uri.ofPath?_isSome_iff]

theorem fileUri_of_nameable (h : Uri.Nameable path) : fileUri path = .ok (Uri.fileText path) :=
  fileUri_eq_ok_iff.mpr <| Uri.ofPath?_eq_some_iff.mpr
    ⟨h.isAbsolute, rfl, (Uri.checkReference_iff_nameable h.isAbsolute).mpr h⟩

theorem fileUri_eq_error_iff {fault : NoUri} :
    fileUri path = .error fault ↔ ¬ Uri.Nameable path ∧ fault = ⟨path⟩ := by
  rw [← Uri.ofPath?_isSome_iff]
  unfold fileUri
  cases Uri.ofPath? path <;> simp [eq_comm]

/-- File URIs name files. Two paths have the same URI exactly if they have the same components. What
stands between the slashes of a URI, with its escapes taken out, is nothing in front of the first one
and then the name of each component; behind the slash of the root alone stands nothing. A relative
path has no URI. -/
theorem file_uris_identify_files :
    (∀ p q uri uri', fileUri p = .ok uri → fileUri q = .ok uri' →
      (uri = uri' ↔ p.components = q.components)) ∧
    (∀ p uri, fileUri p = .ok uri → (Uri.segments uri).map Uri.unescape =
      [] :: if Uri.ownNames p = [] then [[]] else Uri.ownNames p) ∧
    ∀ p, p.isAbsolute = false → fileUri p = .error ⟨p⟩ := by
  refine ⟨?_, ?_, ?_⟩
  · intro p q uri uri' hFirst hSecond
    rw [fileUri_eq_ok_iff, Uri.ofPath?_eq_some_iff] at hFirst hSecond
    obtain ⟨hAbsolute, rfl, -⟩ := hFirst
    obtain ⟨hAbsolute', rfl, -⟩ := hSecond
    exact Uri.fileText_eq_iff hAbsolute hAbsolute'
  · intro p uri hUri
    rw [fileUri_eq_ok_iff, Uri.ofPath?_eq_some_iff] at hUri
    obtain ⟨hAbsolute, rfl, -⟩ := hUri
    rw [Uri.unescape_segments, Uri.names_eq_ownNames hAbsolute]
  · intro p hRelative
    apply fileUri_eq_error_iff.mpr
    refine ⟨fun hNameable => ?_, rfl⟩
    rw [hNameable.isAbsolute] at hRelative
    cases hRelative

/-- A path with more separators and dots than it needs, a percent sign and a byte that is no text. -/
def untidyPath : Path :=
  ⟨[0x2f, 0x61, 0x2f, 0x2f, 0x2e, 0x2f, 0x25, 0x32, 0x46, 0x2f, 0xff, 0x2f, 0x2e, 0x2e, 0x2f]⟩

def tidyPath : Path :=
  ⟨[0x2f, 0x61, 0x2f, 0x25, 0x32, 0x46, 0x2f, 0xff, 0x2f, 0x2e, 0x2e]⟩

theorem untidyPath_identified :
    ∃ uri, fileUri untidyPath = .ok uri ∧ fileUri tidyPath = .ok uri ∧
      (Uri.segments uri).map Uri.unescape =
        [[], [0x61], [0x25, 0x32, 0x46], [0xff], [0x2e, 0x2e]] ∧
      fileUri (.ofString "a") = .error ⟨.ofString "a"⟩ := by
  have hUntidy : Uri.Nameable untidyPath :=
    ⟨by decide, by simp [untidyPath, Uri.refusedBytes]⟩
  have hTidy : Uri.Nameable tidyPath := ⟨by decide, by simp [tidyPath, Uri.refusedBytes]⟩
  obtain ⟨hSame, hRead, hRelative⟩ := file_uris_identify_files
  have hUris := (hSame _ _ _ _ (fileUri_of_nameable hUntidy) (fileUri_of_nameable hTidy)).mpr
    (by decide)
  refine ⟨_, fileUri_of_nameable hUntidy, hUris ▸ fileUri_of_nameable hTidy, ?_,
    hRelative _ (by decide +kernel)⟩
  rw [hRead _ _ (fileUri_of_nameable hUntidy)]
  decide

end EditorBridge.Lsp
