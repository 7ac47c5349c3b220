import EditorBridge.Host.Formatting
/-!
Commands that read their whole input, or the beginning of it, before they write anything.
-/
namespace EditorBridge.Host

inductive Filter where
  | firstLines (n : Nat)
  | firstBytes (n : Nat)
  | lastLines (n : Nat)
  | lastBytes (n : Nat)
  | countLines
  | countWords
  | countBytes
  | countAll
  | sort (once : Bool)
  | reverse
  | changes
  | substitute (old new : List Char)
  | delete (dropped : List Char)
deriving Repr

namespace Filter

/-- The first lines of a text, each with its line break, and how many are missing. -/
def takeLines : Nat → List Char → List Char × Nat
  | 0, _ => ([], 0)
  | n, [] => ([], n)
  | n + 1, c :: rest =>
    let (taken, missing) := takeLines (if c = '\n' then n else n + 1) rest
    (c :: taken, missing)

/-- The lines of a text; the last one may lack its line break. -/
def linesOf (text : List Char) : List (List Char) :=
  let lines := (String.ofList text).splitOn "\n"
  (if lines.getLast? = some "" then lines.dropLast else lines).map String.toList

def ofLines (lines : List (List Char)) : List Char := lines.flatMap (· ++ ['\n'])

/-- Of equal lines that follow each other only one stays. -/
def withoutRepeats : List (List Char) → List (List Char)
  | a :: b :: rest => if a = b then withoutRepeats (b :: rest) else a :: withoutRepeats (b :: rest)
  | lines => lines

def wordCount (text : List Char) : Nat :=
  ((String.ofList (text.map fun c => if c = '\n' || c = '\t' then ' ' else c)).splitOn " ").countP
    (!·.isEmpty)

def numberLine (n : Nat) : List Char := (toString n ++ "\n").toList

def column (n : Nat) : List Char :=
  let digits := (toString n).toList
  List.replicate (7 - digits.length) ' ' ++ digits

/-- The output of a filter, and what it leaves of the input; none while it waits for more. -/
def run? (f : Filter) (input : List Char) (ended : Bool) : Option (List Char × List Char) :=
  let whole (text : List Char) := if ended then some (text, []) else none
  match f with
  | .firstLines n =>
    let (taken, missing) := takeLines n input
    if missing = 0 || ended then some (taken, input.drop taken.length) else none
  | .firstBytes n =>
    if n ≤ input.length || ended then some (input.take n, input.drop n) else none
  | .lastLines n =>
    let lines := linesOf input
    let kept := ofLines (lines.drop (lines.length - n))
    whole (if input.getLast? = some '\n' then kept else kept.dropLast)
  | .lastBytes n => whole (input.drop (input.length - n))
  | .countLines => whole (numberLine (input.count '\n'))
  | .countWords => whole (numberLine (wordCount input))
  | .countBytes => whole (numberLine input.length)
  | .countAll =>
    let counts := [input.count '\n', wordCount input, input.length]
    whole ([' '].intercalate (counts.map column) ++ ['\n'])
  | .sort once =>
    let lines := (linesOf input).mergeSort fun a b => !(b < a)
    whole (ofLines (if once then withoutRepeats lines else lines))
  | .reverse =>
    match (linesOf input).reverse with
    | last :: more =>
      whole ((if input.getLast? = some '\n' then last ++ ['\n'] else last) ++ ofLines more)
    | [] => whole []
  | .changes => whole (ofLines (withoutRepeats (linesOf input)))
  | .substitute old new =>
    whole <| input.map fun c => ((old.zip new).find? (·.1 == c)).elim c (·.2)
  | .delete dropped => whole (input.filter fun c => !dropped.contains c)

def expandSet : List Char → List Char
  | a :: '-' :: b :: rest =>
    (List.range' a.toNat (b.toNat + 1 - a.toNat)).map Char.ofNat ++ expandSet rest
  | c :: rest => c :: expandSet rest
  | [] => []

def setOf (s : List Char) : List Char := expandSet (unescape true (s.length + 1) s)

/-- A set is as long as the other one when its last character is repeated. -/
def fillSet (n : Nat) (s : List Char) : List Char :=
  s ++ List.replicate (n - s.length) (s.getLastD ' ')

/-- The count that an option has behind its letter or in the next argument; a number alone stands
for the option with the letter `n`. -/
def countOption? (letter : Char) : List (List Char) → Option (Nat × List (List Char))
  | ['-', c] :: n :: files => if c = letter then some ((numberOf n).toNat, files) else none
  | ('-' :: c :: n) :: files =>
    if c = letter then some ((numberOf n).toNat, files)
    else if letter = 'n' && c.isDigit then some ((numberOf (c :: n)).toNat, files)
    else none
  | _ => none

/-- A number of lines or of bytes, ten lines if nothing is said. -/
def ofEnd (lines bytes : Nat → Filter) (args : List (List Char)) : Filter × List (List Char) :=
  match countOption? 'n' args, countOption? 'c' args with
  | some (n, files), _ => (lines n, files)
  | none, some (n, files) => (bytes n, files)
  | none, none => (lines 10, args)

/-- The filter of a command with arguments, and the files that it is to read. -/
def ofCommand? (name : String) (args : List (List Char)) : Option (Filter × List (List Char)) :=
  match name, args with
  | "head", args => some (ofEnd .firstLines .firstBytes args)
  | "tail", args => some (ofEnd .lastLines .lastBytes args)
  | "wc", ['-', 'c'] :: files => some (.countBytes, files)
  | "wc", ['-', 'l'] :: files => some (.countLines, files)
  | "wc", ['-', 'w'] :: files => some (.countWords, files)
  | "wc", files => some (.countAll, files)
  | "sort", ['-', 'u'] :: files => some (.sort true, files)
  | "sort", files => some (.sort false, files)
  | "tac", files => some (.reverse, files)
  | "uniq", files => some (.changes, files)
  | "tr", [['-', 'd'], dropped] => some (.delete (setOf dropped), [])
  | "tr", [old, new] =>
    let old := setOf old
    some (.substitute old (fillSet old.length (setOf new)), [])
  | _, _ => none

end Filter
end EditorBridge.Host
