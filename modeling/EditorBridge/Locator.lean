import EditorBridge.Path.Basic
/-!
Where the executable of the language server is: in the directory `bin` of a bundle inside the
installation directory, or wherever the configuration says.
-/
namespace EditorBridge

/-- A bundled server: the directory of the bundle and the name of the executable. -/
structure ServerBundle where
  subdir : String
  executable : String
deriving DecidableEq, Repr

/-- The bundle that comes with the extension. -/
def ServerBundle.standard : ServerBundle := ⟨"nb-java-lsp-server", "nb-java-lsp-server"⟩

/-- The path of the executable. -/
structure ServerLocation where
  path : Path
deriving DecidableEq, Repr

namespace ServerLocation

/-- The path of a bundled server. Each part is joined to what is there, so an absolute part takes
the place of all before it. -/
def resolve (installDir : Path) (bundle : ServerBundle) : ServerLocation :=
  ⟨((installDir.joinText bundle.subdir).joinText "bin").joinText bundle.executable⟩

/-- A path that was given counts as it is. -/
def explicit (path : Path) : ServerLocation := ⟨path⟩

def display (location : ServerLocation) : String := location.path.display

end ServerLocation
end EditorBridge
