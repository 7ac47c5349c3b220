/-!
The files of a small system: directories, links to directories, programs and files that are no
programs. A path is walked name by name from the root or from a directory.
-/
namespace EditorBridge.Host

inductive PathFault where
  | notFound
  /-- The path goes on behind a file. -/
  | noDirectory
  /-- The file is no program. -/
  | denied
  | nameTooLong
deriving DecidableEq, Repr

def PathFault.message : PathFault → String
  | .notFound => "No such file or directory (os error 2)"
  | .noDirectory => "Not a directory (os error 20)"
  | .denied => "Permission denied (os error 13)"
  | .nameTooLong => "File name too long (os error 36)"

/-- A place: the names on the way from the root. -/
abbrev Place := List String

def Place.path : Place → String
  | [] => "/"
  | names => String.join (names.map ("/" ++ ·))

inductive Entry where
  | directory (place : Place)
  | program (name : String)
  | file
deriving DecidableEq, Repr

namespace Tree

def shells : List String := ["sh", "dash", "bash"]

def programs : List String :=
  shells ++ ["[", "basename", "cat", "dirname", "echo", "env", "expr", "false", "head", "kill",
    "printenv", "printf", "pwd", "seq", "sleep", "sort", "tac", "tail", "tee", "test", "tr", "true",
    "uniq", "wc"]

def programPlace : Place := ["usr", "bin"]

def directories : List Place :=
  [["boot"], ["dev"], ["etc"], ["home"], ["media"], ["mnt"], ["opt"], ["proc"], ["root"], ["run"],
    ["srv"], ["sys"], ["tmp"], ["usr"], programPlace, ["usr", "include"], ["usr", "lib"],
    ["usr", "local"], ["usr", "local", "bin"], ["usr", "local", "sbin"], ["usr", "sbin"],
    ["usr", "share"], ["var"], ["var", "lib"], ["var", "log"], ["var", "tmp"]]

/-- Names below the root that stand for other directories. -/
def links : List (String × Place) :=
  [("bin", programPlace), ("lib", ["usr", "lib"]), ("sbin", ["usr", "sbin"])]

def plainFiles : List Place :=
  [["etc", "passwd"], ["etc", "group"], ["etc", "hosts"], ["etc", "hostname"], ["etc", "fstab"],
    ["dev", "null"], ["dev", "zero"]]

/-- Where a process works if nothing else is said. -/
def usualPlace : Place := ["tmp"]

def longestName : Nat := 255

def child (place : Place) (name : String) : Except PathFault Entry :=
  if longestName < name.utf8ByteSize then .error .nameTooLong
  else
    match if place.isEmpty then links.lookup name else none with
    | some target => .ok (.directory target)
    | none =>
      let inside := place ++ [name]
      if directories.contains inside then .ok (.directory inside)
      else if place = programPlace && programs.contains name then .ok (.program name)
      else if plainFiles.contains inside then .ok .file
      else .error .notFound

def step (e : Entry) (part : String) : Except PathFault Entry :=
  match e, part with
  | .directory place, "" => .ok (.directory place)
  | .directory place, "." => .ok (.directory place)
  | .directory place, ".." => .ok (.directory place.dropLast)
  | .directory place, name => child place name
  | _, _ => .error .noDirectory

/-- Walks a path from a place, or from the root. -/
def resolve (start : Place) (path : String) : Except PathFault Entry :=
  if path.isEmpty then .error .notFound
  else
    (path.splitOn "/").foldlM step (.directory (if path.startsWith "/" then [] else start))

def enter (start : Place) (path : String) : Except PathFault Place := do
  match ← resolve start path with
  | .directory place => return place
  | _ => throw .noDirectory

def execute (start : Place) (path : String) : Except PathFault String := do
  match ← resolve start path with
  | .program name => return name
  | _ => throw .denied

/-- Where programs are looked for if nothing else is said. -/
def usualSearch : String :=
  "/usr/local/sbin:/usr/local/bin:/usr/sbin:/usr/bin:/sbin:/bin"

/-- The program of a name in the first of some places that has it. An empty place is the directory
itself. A file that is no program is told of only when no place has a program. -/
def searchIn (start : Place) (name : String) : List String → Bool → Except PathFault String
  | [], denied => .error (if denied then .denied else .notFound)
  | place :: rest, denied =>
    match execute start (if place.isEmpty then name else place ++ "/" ++ name) with
    | .ok program => .ok program
    | .error fault => searchIn start name rest (denied || fault = .denied)

/-- A command with a slash is a path; any other is looked for. -/
def find (start : Place) (search command : String) : Except PathFault String :=
  if command.contains '/' then execute start command
  else if command.isEmpty then .error .notFound
  else if longestName < command.utf8ByteSize then .error .nameTooLong
  else searchIn start command (search.splitOn ":") false

end Tree
end EditorBridge.Host
