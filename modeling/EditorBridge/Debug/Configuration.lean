import EditorBridge.Json.Value
import EditorBridge.Path.Relative
/-!
Launch configurations: free-form members as the user wrote them, and their resolution for programs
in Java. Resolution copies the program into the main class and fixes the class path; it never fails.
-/
namespace EditorBridge.Debug

/-- The members of a launch configuration, of which none is needed. Their names increase, so there
is one member of each name. -/
structure LaunchConfiguration where
  members : Keyed Json
  sorted : members.Sorted
deriving Repr

namespace LaunchConfiguration

/-- The configuration of a list of members; the last one of a name counts. -/
def ofMembers (entries : List (String × Json)) : LaunchConfiguration :=
  ⟨Keyed.ofEntries entries, .ofEntries entries⟩

/-- A member, which may well be null. -/
def get? (c : LaunchConfiguration) (key : String) : Option Json := c.members.find? key

/-- A member, if it is a text. -/
def text? (c : LaunchConfiguration) (key : String) : Option String := (c.get? key).bind Json.string?

/-- The type of debugger that is wanted. -/
def debugType? (c : LaunchConfiguration) : Option String := c.text? "type"

/-- Is a program launched or attached to? -/
def request? (c : LaunchConfiguration) : Option String := c.text? "request"

def name? (c : LaunchConfiguration) : Option String := c.text? "name"

def program? (c : LaunchConfiguration) : Option Json := c.get? "program"

def mainClass? (c : LaunchConfiguration) : Option Json := c.get? "mainClass"

def classPaths? (c : LaunchConfiguration) : Option Json := c.get? "classPaths"

/-- Sets a member, in the place of the one of this name. -/
def insert (c : LaunchConfiguration) (key : String) (value : Json) : LaunchConfiguration :=
  ⟨c.members.insert key value, c.sorted.insert key value⟩

/-- Takes a member out. The others stay. -/
def erase (c : LaunchConfiguration) (key : String) : LaunchConfiguration :=
  ⟨c.members.erase key, c.sorted.erase key⟩

def toJson (c : LaunchConfiguration) : Json := .object c.members

/-- The class path of every Java program: the server finds out what belongs there. -/
def anyClassPath : Json := .array [.string "any"]

/-- Resolution for Java: the main class is the program's value, whatever that is, and absent without
a program; the class path is fixed. -/
def resolveJava (c : LaunchConfiguration) : LaunchConfiguration :=
  let withMain := match c.program? with
    | some program => c.insert "mainClass" program
    | none => c.erase "mainClass"
  withMain.insert "classPaths" anyClassPath

end LaunchConfiguration

/-- A folder of the workspace, with its place among the folders. -/
structure WorkspaceFolder where
  path : Path
  name : String
  index : Nat
deriving DecidableEq, Repr

/-- The folder of a path, named after the last component when that is a name. -/
def WorkspaceFolder.ofPath (path : Path) : WorkspaceFolder :=
  ⟨path, (path.fileName?.map Utf8.lossyString).getD "", 0⟩

end EditorBridge.Debug
