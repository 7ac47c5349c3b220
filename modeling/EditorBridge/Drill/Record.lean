import EditorBridge.Drill.Step
import EditorBridge.Json.Decode
import EditorBridge.Lsp.Output
import EditorBridge.Lsp.Params
/-!
What drills record. A failure is recorded by the kind of its cause and by its message.
-/
namespace EditorBridge.Drill

def str (s : String) : Json := .string s

def obj (members : List (String × Json)) : Json := Json.ofMembers members

def opt (j : Option Json) : Json := .array j.toList

def orNull (j : Option Json) : Json := j.getD .null

def errorAnswer (kind message : String) : Json :=
  obj [("error", str kind), ("message", str message)]

/-- A text that is no JSON is told apart from a value that does not fit. -/
def faultAnswer : DecodeFault → Json
  | .text .malformed => obj [("error", str "syntax")]
  | .text .endOfText => obj [("error", str "eof")]
  | .misfit m => errorAnswer "data" m.message

def decoded {α : Type} (f : α → Json) : Decoded α → Json
  | .ok a => f a
  | .error e => faultAnswer e

def globAnswer (f : Lsp.GlobFault) : Json :=
  errorAnswer "InvalidGlob" ("Invalid file-watch glob '" ++ f.pattern ++ "': " ++ f.reason)

def filterJson (f : Lsp.DocumentFilter) : Json := obj f.toMembers

def selectorJson (s : Lsp.DocumentSelector) : Json := .array (s.map filterJson)

def noUriAnswer (f : Lsp.NoUri) : Json :=
  errorAnswer "InvalidUri" ("Path cannot be expressed as a file URI: " ++ f.path.display)

def policyOf (j : Json) : Lsp.RevealPolicy := (Lsp.RevealPolicy.ofName? (strOf j)).getD .never

def levelOf (j : Json) : Lsp.OutputLevel := (Lsp.OutputLevel.ofName? (strOf j)).getD .log

def lineJson (l : Lsp.OutputLine) : Json := .array [str l.level.name, str l.text]

/-- An entry with lists of further things, of which empty ones are left out. -/
def entry (r : Json) (lists : List (String × List Json)) : Json :=
  obj (("r", r) :: lists.filterMap fun (k, xs) => if xs.isEmpty then none else some (k, .array xs))

/-- What has ended, in the order of the labels. -/
def doneJson (done : List (Nat × Json)) : List Json :=
  (done.mergeSort fun a b => a.1 ≤ b.1).map fun (label, j) => .array [.nat label, j]

end EditorBridge.Drill
