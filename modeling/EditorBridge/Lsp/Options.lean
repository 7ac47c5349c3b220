import EditorBridge.Glob.Nesting
import EditorBridge.Glob.Parser
import EditorBridge.Json.Decode
/-!
What a language client is responsible for: the documents it opens, the files it watches, and when
its output is brought to the front.
-/
namespace EditorBridge.Lsp

/-- A condition on documents; what is left open holds of all. -/
structure DocumentFilter where
  language : Option String
  scheme : Option String
deriving DecidableEq, Repr

namespace DocumentFilter

/-- The documents of one language, wherever they are. -/
def ofLanguage (languageId : String) : DocumentFilter := ⟨some languageId, none⟩

/-- A document is accepted if it meets every condition that is set. -/
def accepts (filter : DocumentFilter) (languageId scheme : String) : Bool :=
  filter.language.all (· == languageId) && filter.scheme.all (· == scheme)

/-- The members that are read, of which none is needed. -/
def shape : RecordShape DocumentFilter where
  name := "DocumentFilter"
  fields := [
    ⟨"language", .free, fun f d => do
      return { f with language := ← d.readOptional Document.readText }⟩,
    ⟨"scheme", .free, fun f d => do
      return { f with scheme := ← d.readOptional Document.readText }⟩]

def read (origin : Origin) : Document → Decoded DocumentFilter := shape.read origin ⟨none, none⟩

/-- Conditions that are left open are not written. -/
def toMembers (filter : DocumentFilter) : List (String × Json) :=
  Json.present [("language", filter.language.map .string), ("scheme", filter.scheme.map .string)]

end DocumentFilter

/-- The documents that at least one filter accepts. -/
abbrev DocumentSelector := List DocumentFilter

namespace DocumentSelector

def accepts (selector : DocumentSelector) (languageId scheme : String) : Bool :=
  selector.any (·.accepts languageId scheme)

def read (origin : Origin) : Document → Decoded DocumentSelector :=
  Document.readList (DocumentFilter.read origin)

end DocumentSelector

inductive GlobFault where
  | malformed (pattern : String) (fault : Glob.Fault)
  | tooDeep (patterns : List String) (spot : Glob.TooDeep)
deriving DecidableEq, Repr

def GlobFault.pattern : GlobFault → String
  | .malformed pattern _ => pattern
  | .tooDeep patterns _ => ", ".intercalate patterns

def GlobFault.reason : GlobFault → String
  | .malformed pattern fault => fault.message pattern
  | .tooDeep _ spot => spot.reason

/-- The files that are watched. -/
structure FileEventFilter where
  patterns : List Glob.Pattern
deriving Repr

namespace FileEventFilter

/-- Reads globs in their order; the first that is malformed is told. -/
def readGlobs : List String → Except GlobFault (List Glob.Pattern)
  | [] => .ok []
  | text :: rest =>
    match Glob.parse text with
    | .error fault => .error (.malformed text fault)
    | .ok pattern => (readGlobs rest).map (pattern :: ·)

/-- A filter of globs; those that are nested too deep are refused only together. -/
def ofGlobs (globs : List String) : Except GlobFault FileEventFilter :=
  match readGlobs globs with
  | .error fault => .error fault
  | .ok patterns =>
    match Glob.tooDeep? patterns with
    | some spot => .error (.tooDeep globs spot)
    | none => .ok ⟨patterns⟩

/-- The path as the globs see it: relative to the root when it lies inside. -/
def relative (path : Path) (root : Option Path) : Path :=
  (root.bind path.stripPrefix?).getD path

/-- A file is watched if any of the globs matches. -/
def accepts (filter : FileEventFilter) (path : Path) (root : Option Path) : Bool :=
  filter.patterns.any (·.matchesPath (relative path root))

end FileEventFilter

/-- From which severity on a line of output brings the channel to the front. -/
inductive RevealPolicy where
  | info
  | warn
  | error
  | never
deriving DecidableEq, Repr

namespace RevealPolicy

def rank : RevealPolicy → Nat
  | .info => 1
  | .warn => 2
  | .error => 3
  | .never => 4

/-- Does a line of this severity bring the channel to the front? -/
def reveals (policy severity : RevealPolicy) : Bool :=
  policy != .never && policy.rank ≤ severity.rank

def name : RevealPolicy → String
  | .info => "Info"
  | .warn => "Warn"
  | .error => "Error"
  | .never => "Never"

def all : List RevealPolicy := [.info, .warn, .error, .never]

def ofName? (name : String) : Option RevealPolicy := all.find? (·.name == name)

/-- A misfit lists the names that there are. -/
def decodeName (name : String) : Decoded RevealPolicy :=
  match ofName? name with
  | some policy => .ok policy
  | none => .error (.misfit (.unknownVariant name (all.map RevealPolicy.name)))

def readKey : Document → Decoded RevealPolicy
  | .string s => decodeName s
  | d => d.wrongType "variant identifier"

def readNull : Document → Decoded Unit
  | .null => .ok ()
  | d => d.wrongType "unit"

/-- Reads a policy: its name, or an object with the name as its only key and null as the value. A
text that starts neither a string nor an object is malformed, wherever it breaks off. -/
def read : Document → Decoded RevealPolicy
  | .string s => decodeName s
  | .object [] fault => .error (.text (fault.getD .malformed))
  | .object ((key, value) :: others) fault => do
    let policy ← readKey key
    readNull value
    if !others.isEmpty then .error (.text .malformed)
    else
      match fault with
      | some f => .error (.text f)
      | none => .ok policy
  | .broken .absent => .error (.text .endOfText)
  | .broken (.string fault _) => .error (.text fault)
  | _ => .error (.text .malformed)

end RevealPolicy

/-- The responsibilities of a client. -/
structure ClientOptions where
  selector : DocumentSelector
  /-- The section of the settings that the server gets. -/
  settingsSection : String
  fileEvents : FileEventFilter
  outputChannelName : String
  reveal : RevealPolicy
deriving Repr

namespace ClientOptions

/-- The responsibilities for one language and the files that one glob matches. -/
def forLanguage (languageId glob outputChannelName : String) : Except GlobFault ClientOptions := do
  let filter ← FileEventFilter.ofGlobs [glob]
  return {
    selector := [.ofLanguage languageId]
    settingsSection := languageId
    fileEvents := filter
    outputChannelName
    reveal := .never }

end ClientOptions

structure ServerOptions where
  command : Path
  args : List String
  cwd : Option Path
deriving DecidableEq, Repr

end EditorBridge.Lsp
