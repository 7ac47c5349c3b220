import EditorBridge.Proofs.Config.Building
import EditorBridge.Proofs.Path.Joined
import EditorBridge.Proofs.Text.WellFormed
/-!
Where the server of a bundle lies. Relative names keep it in the installation directory, as the
executable in `bin`. Whether they are relative is not asked when a configuration is built, and an
absolute name replaces all that stands in front of it.
-/
namespace EditorBridge

/-- The components of the other path stand at the end of this one. -/
def Path.HasSuffix (p tail : Path) : Prop := tail.components <:+ p.components

namespace ServerBundle

/-- There is a configuration that was built with the bundle. -/
def Accepted (bundle : ServerBundle) : Prop :=
  ∃ (b : ConfigBuilder) (config : Config), b.build = .ok config ∧ config.serverBundle = bundle

/-- The executable in a directory `bin`. -/
def ending (bundle : ServerBundle) : Path := .ofString ("bin/" ++ bundle.executable)

/-- The server of the bundle lies in the installation directory, and its path ends in `bin` and the
executable. -/
structure LiesIn (bundle : ServerBundle) (installDir : Path) : Prop where
  inside : (ServerLocation.resolve installDir bundle).path.HasPrefix installDir
  ends : (ServerLocation.resolve installDir bundle).path.HasSuffix bundle.ending

variable {bundle : ServerBundle} {installDir p q : Path}

/-- All that is asked of the names of a bundle is that they are not blank. -/
theorem accepted_iff :
    bundle.Accepted ↔ Visible bundle.subdir ∧ Visible bundle.executable := by
  constructor
  · rintro ⟨b, config, hBuild, rfl⟩
    obtain ⟨-, hValid⟩ := ConfigBuilder.build_eq_ok_iff.mp hBuild
    exact ⟨hValid.subdir, hValid.executable⟩
  · rintro ⟨hSubdir, hExecutable⟩
    refine ⟨ConfigBuilder.empty.set (.serverBundle bundle),
      { Config.standard with serverBundle := bundle }, ?_, rfl⟩
    exact ConfigBuilder.build_eq_ok_iff.mpr
      ⟨rfl, { Config.standard_valid with subdir := hSubdir, executable := hExecutable }⟩

def binName : List UInt8 := Utf8.encode "bin".toList

theorem binName_component : Path.separator ∉ binName ∧
    Path.component? binName = some (.normal binName) := by
  decide +kernel

theorem components_ending :
    bundle.ending.components =
      .normal binName :: Path.bodyComponents (Path.ofString bundle.executable).bytes := by
  have hBytes : bundle.ending =
      ⟨binName ++ Path.separator :: (Path.ofString bundle.executable).bytes⟩ := by
    simp only [ending, Path.ofString, String.toList_append, Utf8.encode_append]
    rfl
  obtain ⟨hName, hComponent⟩ := binName_component
  rw [hBytes, Path.components_piece hName hComponent]

/-- Whatever path `bin` is joined to, it is the last component. -/
theorem joinText_bin (p : Path) :
    ∃ front, (p.joinText "bin").components = front ++ [.normal binName] := by
  obtain ⟨hName, hComponent⟩ := binName_component
  have hBody : Path.bodyComponents (Path.ofString "bin").bytes = [.normal binName] :=
    (Path.bodyComponents_last hName).trans (congrArg Option.toList hComponent)
  by_cases hNone : p.bytes = []
  · refine ⟨[], ?_⟩
    rw [Path.joinText, Path.join_of_empty hNone]
    decide +kernel
  · refine ⟨p.components, ?_⟩
    rw [Path.joinText, Path.components_join hNone (by decide +kernel), hBody]

theorem hasSuffix_of_relative (h : (Path.ofString bundle.executable).isAbsolute = false)
    (installDir : Path) :
    (ServerLocation.resolve installDir bundle).path.HasSuffix bundle.ending := by
  obtain ⟨front, hFront⟩ := joinText_bin (installDir.joinText bundle.subdir)
  have hSome : ((installDir.joinText bundle.subdir).joinText "bin").bytes ≠ [] := by
    intro hNil
    rw [Path.components_eq_nil_iff.mpr hNil] at hFront
    simp at hFront
  rw [Path.HasSuffix, ServerLocation.resolve, Path.joinText, Path.components_join hSome h, hFront,
    components_ending]
  exact ⟨front, by simp⟩

/-- The path is then the executable alone, with a root where the ending has `bin`. -/
theorem not_hasSuffix_of_absolute (h : (Path.ofString bundle.executable).isAbsolute = true)
    (installDir : Path) :
    ¬ (ServerLocation.resolve installDir bundle).path.HasSuffix bundle.ending := by
  intro hSuffix
  obtain ⟨rest, hRest⟩ := Path.isAbsolute_iff.mp h
  have hPath :
      (Path.ofString bundle.executable).components = .root :: Path.bodyComponents rest := by
    rw [hRest]
    rfl
  have hEnding : bundle.ending.components = .normal binName :: Path.bodyComponents rest := by
    rw [components_ending, hRest]
    exact congrArg _ (Path.bodyComponents_append [] rest)
  rw [Path.HasSuffix, ServerLocation.resolve, Path.joinText, Path.join_of_absolute h, hPath,
    hEnding] at hSuffix
  cases hSuffix.eq_of_length rfl

/-- A relative executable lies in the directory of its bundle, wherever that is. -/
theorem hasPrefix_subdir (h : (Path.ofString bundle.executable).isAbsolute = false)
    (installDir : Path) :
    (ServerLocation.resolve installDir bundle).path.HasPrefix
      (installDir.joinText bundle.subdir) := by
  have hBin : ((installDir.joinText bundle.subdir).joinText "bin").HasPrefix
      (installDir.joinText bundle.subdir) :=
    Path.join_hasPrefix (by decide +kernel)
  exact (Path.join_hasPrefix h).trans hBin

theorem hasPrefix_of_relative (hSubdir : (Path.ofString bundle.subdir).isAbsolute = false)
    (hExecutable : (Path.ofString bundle.executable).isAbsolute = false) (installDir : Path) :
    (ServerLocation.resolve installDir bundle).path.HasPrefix installDir :=
  (hasPrefix_subdir hExecutable installDir).trans (Path.join_hasPrefix hSubdir)

/-- Behind an absolute name it does not matter where the installation is. -/
theorem resolve_of_absolute (h : (Path.ofString bundle.subdir).isAbsolute = true)
    (installDir : Path) :
    ServerLocation.resolve installDir bundle = ServerLocation.resolve ⟨[]⟩ bundle := by
  simp only [ServerLocation.resolve, Path.joinText, Path.join_of_absolute h]

/-- What lies in an absolute directory does not lie in the current one. -/
theorem not_hasPrefix_current (hRoot : q.isAbsolute = true) (h : p.HasPrefix q) :
    ¬ p.HasPrefix (.ofString ".") := by
  rintro ⟨behind, hCurrent⟩
  obtain ⟨more, hMore⟩ := h
  obtain ⟨rest, rfl⟩ := Path.isAbsolute_iff.mp hRoot
  have hSame : Path.Component.current :: behind = .root :: (Path.bodyComponents rest ++ more) :=
    hCurrent.trans hMore.symm
  cases hSame

/-- The executable must be relative. Then a relative subdirectory lies in every installation, and an
absolute one in those that the path leads into by itself. -/
theorem liesIn_iff : bundle.LiesIn installDir ↔
    (Path.ofString bundle.executable).isAbsolute = false ∧
      ((Path.ofString bundle.subdir).isAbsolute = false ∨
        (ServerLocation.resolve ⟨[]⟩ bundle).path.HasPrefix installDir) := by
  cases hExecutable : (Path.ofString bundle.executable).isAbsolute with
  | true =>
    exact iff_of_false (fun h => not_hasSuffix_of_absolute hExecutable installDir h.ends) (by simp)
  | false =>
    have hEnds := hasSuffix_of_relative hExecutable installDir
    cases hSubdir : (Path.ofString bundle.subdir).isAbsolute with
    | false =>
      have hInside := hasPrefix_of_relative hSubdir hExecutable installDir
      exact iff_of_true ⟨hInside, hEnds⟩ ⟨rfl, .inl rfl⟩
    | true =>
      rw [← resolve_of_absolute hSubdir installDir]
      exact ⟨fun h => ⟨rfl, .inr h.inside⟩, fun h => ⟨h.2.resolve_left (by simp), hEnds⟩⟩

theorem liesIn_everywhere_iff : (∀ installDir, bundle.LiesIn installDir) ↔
    (Path.ofString bundle.subdir).isAbsolute = false ∧
      (Path.ofString bundle.executable).isAbsolute = false := by
  constructor
  · intro h
    have hExecutable := (liesIn_iff.mp (h (.ofString "."))).1
    refine ⟨?_, hExecutable⟩
    rw [← Bool.not_eq_true]
    intro hSubdir
    have hBundle := hasPrefix_subdir hExecutable (.ofString ".")
    rw [Path.joinText, Path.join_of_absolute hSubdir] at hBundle
    exact not_hasPrefix_current hSubdir hBundle (h (.ofString ".")).inside
  · rintro ⟨hSubdir, hExecutable⟩ installDir
    exact liesIn_iff.mpr ⟨hExecutable, .inl hSubdir⟩

/-- Which bundles are accepted, and where their servers lie. -/
structure Placed (bundle : ServerBundle) : Prop where
  /-- Each name needs a character that is not blank, and nothing else. -/
  accepted : bundle.Accepted ↔ Visible bundle.subdir ∧ Visible bundle.executable
  /-- The executable must be relative, and so must the subdirectory, unless the path that it begins
  leads into the installation by itself. -/
  liesIn : ∀ installDir, bundle.LiesIn installDir ↔
    (Path.ofString bundle.executable).isAbsolute = false ∧
      ((Path.ofString bundle.subdir).isAbsolute = false ∨
        (ServerLocation.resolve ⟨[]⟩ bundle).path.HasPrefix installDir)
  /-- A server lies in every installation exactly if both names are relative. -/
  everywhere : (∀ installDir, bundle.LiesIn installDir) ↔
    (Path.ofString bundle.subdir).isAbsolute = false ∧
      (Path.ofString bundle.executable).isAbsolute = false

/-- The server of a bundle lies in every installation exactly if both names are relative. Bundles are
accepted without a look at that. -/
theorem bundles_inside_iff (bundle : ServerBundle) : Placed bundle where
  accepted := accepted_iff
  liesIn _ := liesIn_iff
  everywhere := liesIn_everywhere_iff

/-- A bundle whose subdirectory is absolute. -/
def strayBundle : ServerBundle := ⟨"/opt/server", "run.sh"⟩

/-- An accepted bundle need not lie in the installation. -/
theorem stray_bundle_outside : ¬ ∀ (installDir : Path) (bundle : ServerBundle),
    bundle.Accepted → bundle.LiesIn installDir := by
  intro h
  have hAccepted : strayBundle.Accepted :=
    accepted_iff.mpr ⟨⟨'o', by decide, by decide⟩, ⟨'r', by decide, by decide⟩⟩
  have hInside := (h (.ofString "/ext") strayBundle hAccepted).inside
  revert hInside
  unfold Path.HasPrefix
  decide +kernel

end ServerBundle
end EditorBridge
