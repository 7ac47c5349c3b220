/-!
Shell scripts. A script is read into commands; words keep what the shell will replace in them. Bytes
are written as characters below 256, so that a script, its words and its output may hold any bytes.
-/
namespace EditorBridge.Host

/-- A piece of a word. What is not quoted is split at blanks after it was replaced. -/
inductive Piece where
  | text (s : List Char)
  | quoted (s : List Char)
  /-- A parameter, with what stands behind its name in braces. -/
  | variable (name : List Char) (isQuoted : Bool)
  | arithmetic (expression : List Char) (isQuoted : Bool)
  | output (script : List Char) (isQuoted : Bool)
  /-- What a buffer of the shell holds. -/
  | captured (buffer : Nat) (isQuoted : Bool)
deriving Repr, DecidableEq

/-- A word of a script, which is several texts or none once its pieces are replaced. -/
abbrev Word := List Piece

/-- The text of a word in which nothing is quoted or replaced. -/
def Word.plain? : Word → Option (List Char)
  | [.text s] => some s
  | _ => none

/-- What a script is cut into before it is read as commands. -/
inductive Token where
  | word (w : Word)
  | descriptor (n : Nat)
  | symbol (s : String)
  | newline
deriving Repr, DecidableEq

/-- Where a stream of a command goes to or comes from. -/
inductive Redirect where
  | duplicate (descriptor source : Nat)
  | write (descriptor : Nat) (file : Word)
  | read (file : Word)
deriving Repr

inductive Command where
  | nothing
  | simple (assignments : List (List Char × Word)) (words : List Word) (redirects : List Redirect)
  | sequence (first second : Command)
  | both (first second : Command)
  | either (first second : Command)
  | negated (body : Command)
  | loop (stopsOn : Bool) (condition body : Command)
  | branch (condition yes no : Command)
  | each (name : List Char) (words : List Word) (body : Command)
  /-- Does the first if a word matches one of the patterns, and else the second. -/
  | select (subject : Word) (patterns : List Word) (yes no : Command)
  | group (body : Command) (redirects : List Redirect)
  | subshell (body : Command) (redirects : List Redirect)
  | pipe (first second : Command)
  /-- Goes on while the body runs in a process of its own. -/
  | background (body : Command)
  | define (name : List Char) (body : Command)
deriving Repr, Inhabited

/-- Does the character end a word that is not quoted? -/
def endsWord (c : Char) : Bool := " \t\n;&|<>()".toList.contains c

def isNameStart (c : Char) : Bool := c.isAlpha || c == '_'

def isNameChar (c : Char) : Bool := c.isAlphanum || c == '_'

/-- An arithmetic expression up to the two brackets that end it. `depth` counts open brackets. -/
def arithmeticText (depth : Nat) (seen : List Char) : List Char → List Char × List Char
  | [] => (seen.reverse, [])
  | '(' :: rest => arithmeticText (depth + 1) ('(' :: seen) rest
  | ')' :: rest =>
    match depth, rest with
    | 0, ')' :: rest => (seen.reverse, rest)
    | 0, rest => (seen.reverse, rest)
    | depth + 1, rest => arithmeticText depth (')' :: seen) rest
  | c :: rest => arithmeticText depth (c :: seen) rest

/-- A script up to the bracket that ends it. `depth` counts open brackets, and `quote` is the mark of
the quotes in which a character stands. -/
def scriptText (depth : Nat) (quote : Option Char) (seen : List Char) :
    List Char → List Char × List Char
  | [] => (seen.reverse, [])
  | c :: rest =>
    match quote with
    | some q => scriptText depth (if c = q then none else quote) (c :: seen) rest
    | none =>
      if c = '\'' || c = '"' then scriptText depth (some c) (c :: seen) rest
      else if c = '(' then scriptText (depth + 1) none (c :: seen) rest
      else if c = ')' then
        match depth with
        | 0 => (seen.reverse, rest)
        | depth + 1 => scriptText depth none (c :: seen) rest
      else scriptText depth none (c :: seen) rest

/-- The character that begins and ends the output of a script in the older notation. -/
def isBackquote (c : Char) : Bool := c.toNat == 96

/-- A script up to its mark. A backslash takes the meaning from a mark, a dollar sign and a
backslash. -/
def backquoted (seen : List Char) : List Char → List Char × List Char
  | [] => (seen.reverse, [])
  | '\\' :: c :: rest =>
    if isBackquote c || c = '$' || c = '\\' then backquoted (c :: seen) rest
    else backquoted (c :: '\\' :: seen) rest
  | c :: rest => if isBackquote c then (seen.reverse, rest) else backquoted (c :: seen) rest

/-- What follows a dollar sign: arithmetic, a script, or a parameter. Alone it stands for itself. -/
def readDollar (isQuoted : Bool) : List Char → Piece × List Char
  | '(' :: '(' :: rest =>
    let (expression, rest) := arithmeticText 0 [] rest
    (.arithmetic expression isQuoted, rest)
  | '(' :: rest =>
    let (script, rest) := scriptText 0 none [] rest
    (.output script isQuoted, rest)
  | '\x7b' :: rest =>
    let name := rest.takeWhile (· != '\x7d')
    (.variable name isQuoted, rest.drop (name.length + 1))
  | c :: rest =>
    if isNameStart c then
      let name := (c :: rest).takeWhile isNameChar
      (.variable name isQuoted, (c :: rest).drop name.length)
    else if c.isDigit || "?$#@*!".toList.contains c then (.variable [c] isQuoted, rest)
    else (if isQuoted then .quoted ['$'] else .text ['$'], c :: rest)
  | [] => (if isQuoted then .quoted ['$'] else .text ['$'], [])

/-- The pieces between double quotes, the last one first, and the rest behind them. -/
def readQuoted : Nat → Word → List Char → Word × List Char
  | 0, acc, s => (acc, s)
  | _, acc, [] => (acc, [])
  | _, acc, '"' :: rest => (acc, rest)
  | fuel + 1, acc, '\\' :: c :: rest =>
    if c = '\n' then readQuoted fuel acc rest
    else if "$\"\\".toList.contains c || isBackquote c then
      readQuoted fuel (.quoted [c] :: acc) rest
    else readQuoted fuel (.quoted ['\\', c] :: acc) rest
  | fuel + 1, acc, '$' :: rest =>
    let (piece, rest) := readDollar true rest
    readQuoted fuel (piece :: acc) rest
  | fuel + 1, acc, c :: rest =>
    if isBackquote c then
      let (script, rest) := backquoted [] rest
      readQuoted fuel (.output script true :: acc) rest
    else readQuoted fuel (.quoted [c] :: acc) rest

/-- The pieces of a word, the last one first, and the rest behind it. -/
def readWord : Nat → Word → List Char → Word × List Char
  | 0, acc, s => (acc, s)
  | _, acc, [] => (acc, [])
  | fuel + 1, acc, '\'' :: rest =>
    let inside := rest.takeWhile (· != '\'')
    readWord fuel (.quoted inside :: acc) (rest.drop (inside.length + 1))
  | fuel + 1, acc, '"' :: rest =>
    let (acc, rest) := readQuoted rest.length (.quoted [] :: acc) rest
    readWord fuel acc rest
  | fuel + 1, acc, '\\' :: c :: rest =>
    if c = '\n' then readWord fuel acc rest else readWord fuel (.quoted [c] :: acc) rest
  | fuel + 1, acc, '$' :: rest =>
    let (piece, rest) := readDollar false rest
    readWord fuel (piece :: acc) rest
  | fuel + 1, acc, c :: rest =>
    if endsWord c then (acc, c :: rest)
    else if isBackquote c then
      let (script, rest) := backquoted [] rest
      readWord fuel (.output script false :: acc) rest
    else
      match acc with
      | .text s :: more => readWord fuel (.text (s ++ [c]) :: more) rest
      | _ => readWord fuel (.text [c] :: acc) rest

/-- The longer ones first, since the first that fits is taken. -/
def symbols : List String := ["&&", "||", ";;", ">>", ">&", "<&", ";", "&", "|", "<", ">", "(", ")"]

/-- Cuts a script into tokens; the fuel is more than its length. -/
def tokens : Nat → List Char → List Token
  | 0, _ => []
  | _, [] => []
  | fuel + 1, c :: rest =>
    if c = ' ' || c = '\t' then tokens fuel rest
    else if c = '\n' then .newline :: tokens fuel rest
    else if c = '#' then tokens fuel (rest.dropWhile (· != '\n'))
    else
      match symbols.find? fun s => s.toList.isPrefixOf (c :: rest) with
      | some s => .symbol s :: tokens fuel ((c :: rest).drop s.length)
      | none =>
        let (word, after) := readWord (rest.length + 1) [] (c :: rest)
        let word := word.reverse
        match (Word.plain? word).bind fun s => (String.ofList s).toNat?, after with
        | some n, '<' :: _ => .descriptor n :: tokens fuel after
        | some n, '>' :: _ => .descriptor n :: tokens fuel after
        | _, _ => .word word :: tokens fuel after

/-- Is the token this word, not quoted? Only then it can be a word of the language. -/
def Token.isWord (t : Token) (s : String) : Bool :=
  match t with
  | .word w => w.plain? == some s.toList
  | _ => false

def skipNewlines : List Token → List Token
  | .newline :: rest => skipNewlines rest
  | ts => ts

/-- A word with a name in front of an equals sign is an assignment. -/
def assignment? : Word → Option (List Char × Word)
  | .text s :: more =>
    let name := s.takeWhile isNameChar
    match s.drop name.length with
    | '=' :: value =>
      if name.head?.any isNameStart then
        some (name, if value.isEmpty then more else .text value :: more)
      else none
    | _ => none
  | _ => none

/-- Reads one redirection, for the descriptor in front of it if there is one. -/
def readRedirect? (given : Option Nat) : List Token → Option (Redirect × List Token)
  | .symbol ">&" :: .word w :: rest =>
    match w.plain?.bind fun s => (String.ofList s).toNat? with
    | some source => some (.duplicate (given.getD 1) source, rest)
    | none => some (.write (given.getD 1) w, rest)
  | .symbol ">" :: .word w :: rest => some (.write (given.getD 1) w, rest)
  | .symbol ">>" :: .word w :: rest => some (.write (given.getD 1) w, rest)
  | .symbol "<" :: .word w :: rest => some (.read w, rest)
  | _ => none

/-- Reads redirections as long as there are any. -/
def readRedirects : Nat → List Redirect → List Token → List Redirect × List Token
  | 0, acc, ts => (acc.reverse, ts)
  | fuel + 1, acc, .descriptor n :: ts =>
    match readRedirect? (some n) ts with
    | some (r, ts) => readRedirects fuel (r :: acc) ts
    | none => (acc.reverse, ts)
  | fuel + 1, acc, ts =>
    match readRedirect? none ts with
    | some (r, ts) => readRedirects fuel (r :: acc) ts
    | none => (acc.reverse, ts)

/-- Reads the assignments, words and redirections of a simple command, each list the last one
first. -/
def readSimple : Nat → List (List Char × Word) → List Word → List Redirect → List Token →
    Command × List Token
  | 0, as, ws, rs, ts => (.simple as.reverse ws.reverse rs.reverse, ts)
  | fuel + 1, as, ws, rs, .word w :: ts =>
    match ws, assignment? w with
    | [], some a => readSimple fuel (a :: as) ws rs ts
    | _, _ => readSimple fuel as (w :: ws) rs ts
  | fuel + 1, as, ws, rs, .descriptor n :: ts =>
    match readRedirect? (some n) ts with
    | some (r, ts) => readSimple fuel as ws (r :: rs) ts
    | none => (.simple as.reverse ws.reverse rs.reverse, ts)
  | fuel + 1, as, ws, rs, ts =>
    match readRedirect? none ts with
    | some (r, ts) => readSimple fuel as ws (r :: rs) ts
    | none => (.simple as.reverse ws.reverse rs.reverse, ts)

def closers : List String := ["done", "do", "then", "else", "elif", "fi", "esac", "\x7d"]

def endsList : List Token → Bool
  | [] => true
  | .symbol ")" :: _ => true
  | .symbol ";;" :: _ => true
  | t :: _ => closers.any t.isWord

def dropWord (s : String) : List Token → List Token
  | t :: rest => if t.isWord s then rest else t :: rest
  | [] => []

def readWords : List Token → List Word × List Token
  | .word w :: rest =>
    let (ws, rest) := readWords rest
    (w :: ws, rest)
  | ts => ([], ts)

/-- The patterns of a choice, up to the bracket behind them. -/
def readPatterns : List Token → List Word × List Token
  | .symbol "(" :: rest => readPatterns rest
  | .symbol "|" :: rest => readPatterns rest
  | .symbol ")" :: rest => ([], rest)
  | .word w :: rest =>
    let (ws, rest) := readPatterns rest
    (w :: ws, rest)
  | ts => ([], ts)

def skipSeparators : List Token → List Token
  | .newline :: rest => skipSeparators rest
  | .symbol ";" :: rest => skipSeparators rest
  | ts => ts

mutual

/-- Reads commands up to a word that ends the list. -/
def readList : Nat → List Token → Command × List Token
  | 0, ts => (.nothing, ts)
  | fuel + 1, ts =>
    let ts := skipSeparators ts
    if endsList ts then (.nothing, ts)
    else
      let (first, ts) := readChain fuel ts
      let (first, rest) := match ts with
        | .symbol "&" :: rest => (Command.background first, rest)
        | ts => (first, ts)
      let after := skipSeparators rest
      if endsList after || after.length = ts.length then (first, after)
      else
        let (second, ts) := readList fuel after
        (.sequence first second, ts)

/-- Reads pipelines that depend on each other. -/
def readChain : Nat → List Token → Command × List Token
  | 0, ts => (.nothing, ts)
  | fuel + 1, ts =>
    let (first, ts) := readPipeline fuel ts
    continueChain fuel first ts

/-- Reads commands that are joined by pipes. An exclamation mark turns their status around. -/
def readPipeline : Nat → List Token → Command × List Token
  | 0, ts => (.nothing, ts)
  | fuel + 1, t :: ts =>
    if t.isWord "!" then
      let (body, ts) := readPipeline fuel ts
      (.negated body, ts)
    else
      match readCommand fuel (t :: ts) with
      | (first, .symbol "|" :: ts) =>
        let (second, ts) := readPipeline fuel (skipNewlines ts)
        (.pipe first second, ts)
      | r => r
  | _, [] => (.nothing, [])

/-- Reads what depends on the status of the first pipeline. -/
def continueChain : Nat → Command → List Token → Command × List Token
  | 0, first, ts => (first, ts)
  | fuel + 1, first, .symbol "&&" :: ts =>
    let (second, ts) := readPipeline fuel (skipNewlines ts)
    continueChain fuel (.both first second) ts
  | fuel + 1, first, .symbol "||" :: ts =>
    let (second, ts) := readPipeline fuel (skipNewlines ts)
    continueChain fuel (.either first second) ts
  | _ + 1, first, ts => (first, ts)

/-- Reads what follows a condition, with further conditions. -/
def readBranch : Nat → Command → List Token → Command × List Token
  | 0, condition, ts => (condition, ts)
  | fuel + 1, condition, ts =>
    let (yes, ts) := readList fuel (dropWord "then" ts)
    match ts with
    | t :: rest =>
      if t.isWord "elif" then
        let (next, rest) := readList fuel rest
        let (no, rest) := readBranch fuel next rest
        (.branch condition yes no, rest)
      else if t.isWord "else" then
        let (no, rest) := readList fuel rest
        (.branch condition yes no, dropWord "fi" rest)
      else (.branch condition yes .nothing, dropWord "fi" (t :: rest))
    | [] => (.branch condition yes .nothing, [])

/-- Reads the choices for a subject, up to the word that ends them. -/
def readChoices : Nat → Word → List Token → Command × List Token
  | 0, _, ts => (.nothing, ts)
  | fuel + 1, subject, ts =>
    match skipNewlines ts with
    | [] => (.nothing, [])
    | t :: ts =>
      if t.isWord "esac" then (.nothing, ts)
      else
        let (patterns, ts) := readPatterns (t :: ts)
        let (yes, ts) := readList fuel ts
        let ts := match ts with
          | .symbol ";;" :: rest => rest
          | ts => ts
        let (no, ts) := readChoices fuel subject ts
        (.select subject patterns yes no, ts)

def readCommand : Nat → List Token → Command × List Token
  | 0, ts => (.nothing, ts)
  | fuel + 1, .symbol "(" :: ts =>
    let (body, ts) := readList fuel ts
    let ts := match ts with
      | .symbol ")" :: rest => rest
      | ts => ts
    let (redirects, ts) := readRedirects fuel [] ts
    (.subshell body redirects, ts)
  | fuel + 1, .word w :: .symbol "(" :: .symbol ")" :: ts =>
    let (body, ts) := readCommand fuel (skipNewlines ts)
    (.define (w.plain?.getD []) body, ts)
  | fuel + 1, t :: ts =>
    if t.isWord "\x7b" then
      let (body, ts) := readList fuel ts
      let (redirects, ts) := readRedirects fuel [] (dropWord "\x7d" ts)
      (.group body redirects, ts)
    else if t.isWord "while" || t.isWord "until" then
      let (condition, ts) := readList fuel ts
      let (body, ts) := readList fuel (dropWord "do" ts)
      let (redirects, ts) := readRedirects fuel [] (dropWord "done" ts)
      (.group (.loop (t.isWord "until") condition body) redirects, ts)
    else if t.isWord "if" then
      let (condition, ts) := readList fuel ts
      readBranch fuel condition ts
    else if t.isWord "for" then
      match ts with
      | .word w :: ts =>
        let (words, ts) := match ts with
          | t :: rest =>
            if t.isWord "in" then readWords rest
            else ([[.quoted [], .variable ['@'] true]], t :: rest)
          | [] => ([], [])
        let (body, ts) := readList fuel (dropWord "do" (skipSeparators ts))
        (.each (w.plain?.getD []) words body, dropWord "done" ts)
      | ts => (.nothing, ts)
    else if t.isWord "case" then
      match ts with
      | .word w :: ts =>
        let (choices, ts) := readChoices fuel w (dropWord "in" (skipNewlines ts))
        let (redirects, ts) := readRedirects fuel [] ts
        (.group choices redirects, ts)
      | ts => (.nothing, ts)
    else readSimple (ts.length + 1) [] [] [] (t :: ts)
  | _, [] => (.nothing, [])

end

/-- Reads a whole script. What makes no sense ends it. -/
def Command.ofScript (script : List Char) : Command :=
  let ts := tokens (script.length + 1) script
  (readList (4 * ts.length + 4) ts).1

end EditorBridge.Host
