import EditorBridge.Json.Value
/-!
Settings trees and their sections. A section is a path of names with dots between them; empty names
do not count, and a path that leads nowhere denotes null.
-/
namespace EditorBridge.Settings

/-- The pieces of a text between dots; `n` dots part `n + 1` pieces. -/
def pieces : List Char → List (List Char)
  | [] => [[]]
  | '.' :: rest => [] :: pieces rest
  | c :: rest =>
    match pieces rest with
    | [] => [[c]]
    | piece :: more => (c :: piece) :: more

/-- The names in a path, from the root down. -/
def names (section_ : String) : List String :=
  (pieces section_.toList).filterMap fun piece =>
    if piece = [] then none else some (String.ofList piece)

/-- Follows names from the root; none if one of them is missing. -/
def descend? (tree : Json) : List String → Option Json
  | [] => some tree
  | name :: rest => (tree.get? name).bind (descend? · rest)

/-- The value of a section; null when the path leads nowhere. -/
def lookup (tree : Json) (section_ : String) : Json := (descend? tree (names section_)).getD .null

/-- The settings of one section under its own name, as a server gets them. -/
def payload (tree : Json) (section_ : String) : Json :=
  .object [(section_, lookup tree section_)]

end EditorBridge.Settings
