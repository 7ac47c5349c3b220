import EditorBridge.Lsp.Options
import EditorBridge.Proofs.Path.Joined
/-!
The globs of a client and the place of its workspace. A file inside is seen by its names behind the
root, wherever the root lies and however it is written; a file outside is seen as it is, even if the
text of its path begins with that of the root.
-/
namespace EditorBridge.Lsp.FileEventFilter

variable {path root names : Path}

theorem relative_join (h : names.IsPlain) (root : Path) :
    relative (root.join names) (some root) = names := by
  rw [relative, Option.bind_some, Path.stripPrefix?_join h, Option.getD_some]

theorem relative_outside (h : ¬ path.HasPrefix root) : relative path (some root) = path := by
  rw [relative, Option.bind_some, Path.stripPrefix?_eq_none_iff.mpr h, Option.getD_none]

/-- Plain names behind a root are accepted exactly if they are accepted alone, and a path that does
not lie in the root exactly if it is accepted without one. -/
theorem accepts_wherever_root_lies (filter : FileEventFilter) (root : Path) :
    (∀ names : Path, names.IsPlain →
      filter.accepts (root.join names) (some root) = filter.accepts names none) ∧
    ∀ path : Path, ¬ path.HasPrefix root →
      filter.accepts path (some root) = filter.accepts path none := by
  constructor
  · intro names hPlain
    rw [accepts, relative_join hPlain]
    rfl
  · intro path hOutside
    rw [accepts, relative_outside hOutside]
    rfl

/-- A filter of the sources right below a directory. -/
def sourceFilter : FileEventFilter := ⟨(Glob.parse "src/*.java").toOption.toList⟩

theorem sourceFilter_accepts :
    sourceFilter.accepts (.ofString "src/Main.java") none = true ∧
      sourceFilter.accepts (.ofString "/project/src/Main.java") none = false := by
  decide +kernel

/-- The root is written with more separators and dots than it needs, and the other directory has a
name that begins as that of the root. -/
theorem accepts_behind_dotted_root :
    (Path.ofString "src/Main.java").IsPlain ∧
      sourceFilter.accepts ((Path.ofString "/.//proj/./").join (.ofString "src/Main.java"))
        (some (.ofString "/.//proj/./")) = true ∧
      ¬ (Path.ofString "/project/src/Main.java").HasPrefix (.ofString "/proj") ∧
      sourceFilter.accepts (.ofString "/project/src/Main.java") (some (.ofString "/proj")) =
        false := by
  have hPlain : (Path.ofString "src/Main.java").IsPlain := by decide +kernel
  have hOutside : ¬ (Path.ofString "/project/src/Main.java").HasPrefix (.ofString "/proj") := by
    unfold Path.HasPrefix
    decide +kernel
  obtain ⟨hAlone, hOther⟩ := sourceFilter_accepts
  refine ⟨hPlain, ?_, hOutside, ?_⟩
  · rw [(accepts_wherever_root_lies sourceFilter _).1 _ hPlain, hAlone]
  · rw [(accepts_wherever_root_lies sourceFilter _).2 _ hOutside, hOther]

end EditorBridge.Lsp.FileEventFilter
