import EditorBridge.Host.Shell
/-!
Words of a script: their pieces are replaced, and what is not quoted is split at blanks into fields.
-/
namespace EditorBridge.Host.Shell

/-- Adds a replaced piece that is split at blanks to the fields so far, the last one first; the
last field may still be open. -/
def splitInto : List (List Char) → Option (List Char) → List Char →
    List (List Char) × Option (List Char)
  | fields, field, [] => (fields, field)
  | fields, field, c :: rest =>
    if c = ' ' || c = '\t' || c = '\n' then
      match field with
      | some f => splitInto (f :: fields) none rest
      | none => splitInto fields none rest
    else splitInto fields (some (field.getD [] ++ [c])) rest

def arithmetic (s : Shell) (expression : List Char) : List Char :=
  (toString (evaluate s.value (8 * expression.length + 16) operators expression).1).toList

/-- The line breaks at the end of an output do not count. -/
def withoutLineBreaks (text : List Char) : List Char := (text.reverse.dropWhile (· == '\n')).reverse

/-- The text of a piece, and whether it is split at blanks. -/
def pieceText (s : Shell) : Piece → List Char × Bool
  | .text t => (t, false)
  | .quoted t => (t, false)
  | .variable name isQuoted => (s.parameter name, !isQuoted)
  | .arithmetic e isQuoted => (s.arithmetic e, !isQuoted)
  | .output _ _ => ([], false)
  | .captured n isQuoted => (withoutLineBreaks (s.available (.buffer n)), !isQuoted)

/-- Adds pieces to the fields so far. All arguments between quotes are fields of their own. -/
def addPiece (s : Shell) (r : List (List Char) × Option (List Char)) (piece : Piece) :
    List (List Char) × Option (List Char) :=
  let keep (r : List (List Char) × Option (List Char)) (t : List Char) :=
    (r.1, some (r.2.getD [] ++ t))
  match piece with
  | .variable ['@'] true =>
    match s.arguments with
    | [] => r
    | a :: more => more.foldl (fun r a => (r.2.toList ++ r.1, some a)) (keep r a)
  | _ =>
    match s.pieceText piece with
    | (t, true) => splitInto r.1 r.2 t
    | (t, false) => keep r t

/-- The fields of a word. All arguments between quotes are none when there are none. -/
def fields (s : Shell) (w : Word) : List (List Char) :=
  if s.arguments.isEmpty && w = [.quoted [], .variable ['@'] true] then []
  else
    let (fields, last) := w.foldl s.addPiece ([], none)
    (last.toList ++ fields).reverse

def textOf (s : Shell) (w : Word) : List Char := w.flatMap fun piece => (s.pieceText piece).1

/-- A word as a pattern; what is quoted stands for itself. -/
def patternOf (s : Shell) (w : Word) : List PatternChar :=
  w.flatMap fun piece =>
    let (text, splits) := s.pieceText piece
    let special := splits || match piece with
      | .text _ => true
      | _ => false
    text.map (·, special)

/-- The first piece that is the output of a script. -/
def outputPiece? (words : List Word) : Option Piece :=
  words.flatten.find? fun
    | .output .. => true
    | _ => false

def replacePiece (old new : Piece) (w : Word) : Word := w.map fun p => if p = old then new else p

/-- Can a file be written? Those that are no programs can, and so can new ones. -/
def canWrite (s : Shell) (path : List Char) : Bool :=
  match Tree.resolve s.place (String.ofList path) with
  | .ok .file => true
  | .ok _ => false
  | .error _ =>
    let name := path.reverse.takeWhile (· != '/')
    let above := path.take (path.length - name.length)
    !name.isEmpty &&
      (above.isEmpty || (Tree.enter s.place (String.ofList above)).toBool)

/-- Redirects from left to right, up to the first file that cannot be used. -/
def redirect (s : Shell) (streams : Streams) : List Redirect → Except (List Char) Streams
  | [] => .ok streams
  | .duplicate d source :: rest => redirect s (streams.direct d (streams.sink source)) rest
  | .write d file :: rest =>
    let path := s.textOf file
    let go (sink : Sink) : Except (List Char) Streams := redirect s (streams.direct d sink) rest
    match String.ofList path with
    | "/dev/stdout" => go streams.output
    | "/dev/stderr" => go streams.errors
    | _ =>
      if s.canWrite path then go .nowhere
      else .error ("cannot create ".toList ++ path ++ ": Directory nonexistent".toList)
  | .read file :: rest =>
    let path := s.textOf file
    match Tree.resolve s.place (String.ofList path) with
    | .ok _ => redirect s { streams with input := .nothing } rest
    | .error _ => .error ("cannot open ".toList ++ path ++ ": No such file".toList)

end EditorBridge.Host.Shell
