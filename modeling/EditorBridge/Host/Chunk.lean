import EditorBridge.Host.Syntax
/-!
Scripts that are read line by line. A shell runs what it has read as soon as the lines so far make
whole commands: no quotation is open, no word that has to follow is missing, and nothing that joins
commands stands last.
-/
namespace EditorBridge.Host

/-- What a character of a script stands in. -/
inductive Setting where
  | bare (isFresh : Bool)
  | continued
  | quoted (mark : Char)
  /-- Behind a backslash, and then in the quotation, if there is one. -/
  | escaped (mark : Option Char)
  | comment
deriving DecidableEq, Repr

namespace Setting

/-- What a character that is not quoted begins. -/
def afterBare (isFresh : Bool) (c : Char) : Setting :=
  if c = '\\' then .escaped none
  else if c = '#' && isFresh then .comment
  else if c = '\'' || c = '"' || isBackquote c then .quoted c
  else .bare (endsWord c)

def step : Setting → Char → Setting
  | .bare isFresh, c => afterBare isFresh c
  | .continued, c => afterBare false c
  | .quoted mark, c =>
    if c = mark then .bare false
    else if c = '\\' && mark != '\'' then .escaped mark
    else .quoted mark
  | .escaped (some mark), _ => .quoted mark
  | .escaped none, c => if c = '\n' then .continued else .bare false
  | .comment, c => if c = '\n' then .bare true else .comment

def isQuotation : Setting → Bool
  | .quoted _ | .escaped (some _) => true
  | _ => false

end Setting

def settingOf (text : List Char) : Setting := text.foldl Setting.step (.bare true)

inductive Position where
  | start
  | inside
  | closed
  | pattern
deriving DecidableEq, Repr

structure Demand where
  /-- The words that have to follow, the nearest one first. -/
  words : List String
  joined : Bool
  position : Position
  fault : Option String

namespace Demand

def nothing : Demand := ⟨[], false, .start, none⟩

/-- What is said of something that cannot stand here. -/
def unexpected (d : Demand) (what : String) : String :=
  what ++ " unexpected" ++
    (d.words.head?.map fun word => " (expecting \"" ++ word ++ "\")").getD ""

def refuse (d : Demand) (token : String) : Demand :=
  { d with fault := some (d.unexpected ("\"" ++ token ++ "\"")) }

/-- Some word has to follow, with commands in front of it. -/
def expect (d : Demand) (word : String) : Demand :=
  { d with words := word :: d.words, joined := false, position := .start }

/-- One of the nearest words is met, and another one may have to follow in its place. -/
def meet (d : Demand) (words : List String) (token : String) (next : Option String) : Demand :=
  if d.words.head?.any words.contains then
    { d with
      words := next.toList ++ d.words.drop 1, joined := false
      position := if next.isSome then .start else .closed }
  else d.refuse token

/-- A word at the start of a command can begin a construct or go on with one. -/
def startWord (d : Demand) (w : String) : Demand :=
  match w with
  | "if" => d.expect "then"
  | "while" | "until" => d.expect "do"
  | "for" => { d.expect "do" with position := .inside }
  | "\x7b" => d.expect "\x7d"
  | "then" => d.meet ["then"] w (some "fi")
  | "elif" => d.meet ["fi"] w (some "then")
  | "else" => d.meet ["fi"] w (some "fi")
  | "do" => d.meet ["do"] w (some "done")
  | "fi" | "done" | "esac" | "\x7d" => d.meet [w] w none
  | "case" => { d.expect "in" with position := .inside }
  | "!" => { d with joined := true, position := .start }
  | _ => { d with joined := false, position := .inside }

def symbol (d : Demand) (s : String) : Demand :=
  if s = "(" then d.expect ")"
  else if s = ")" then d.meet [")"] s none
  else if s = ";;" then
    if d.words.head? = some "esac" then { d with joined := false, position := .pattern }
    else d.refuse s
  else if s = "&&" || s = "||" || s = "|" || s = ";" || s = "&" then
    if d.position = .start then d.refuse s
    else { d with joined := s = "&&" || s = "||" || s = "|", position := .start }
  else { d with joined := false, position := if d.position = .start then .inside else d.position }

/-- Goes over a token. Behind a fault nothing counts. -/
def token (d : Demand) (t : Token) : Demand :=
  if d.fault.isSome then d
  else
    match d.position, t with
    | .pattern, .word w => if w.plain? = some "esac".toList then d.meet ["esac"] "esac" none else d
    | .pattern, .symbol ")" => { d with position := .start }
    | .pattern, _ => d
    | .inside, .word w =>
      if d.words.head? = some "in" && w.plain? = some "in".toList then
        { d with words := "esac" :: d.words.drop 1, position := .pattern }
      else d
    | _, .word w => d.startWord (String.ofList (w.plain?.getD []))
    | _, .descriptor _ => d
    | _, .newline => if d.words.head? = some "in" then d else { d with position := .start }
    | _, .symbol s => d.symbol s

end Demand

def demandOf (text : List Char) : Demand :=
  (tokens (text.length + 1) text).foldl Demand.token .nothing

/-- What is wrong with a text that is all there will be. -/
def syntaxFault? (text : List Char) : Option String :=
  if (settingOf text).isQuotation then some "Unterminated quoted string"
  else
    let d := demandOf text
    d.fault.or <|
      if d.joined then some "end of file unexpected"
      else if d.words.isEmpty then none
      else some (d.unexpected "end of file")

/-- Does a text hold whole commands, or is it of no use whatever follows? -/
def isWhole (text : List Char) : Bool :=
  let setting := settingOf text
  if setting.isQuotation || setting = .continued then false
  else
    let d := demandOf text
    d.fault.isSome || d.words.isEmpty && !d.joined

/-- The first lines that hold whole commands, and the text behind them. `lines` counts those that
may be tried. -/
def chunk? : Nat → List Char → List Char → Option (List Char × List Char)
  | 0, _, _ => none
  | lines + 1, seen, text =>
    let line := text.takeWhile (· != '\n')
    match text.drop line.length with
    | [] => none
    | _ :: rest =>
      let seen := seen ++ line ++ ['\n']
      if isWhole seen then some (seen, rest) else chunk? lines seen rest

end EditorBridge.Host
