import EditorBridge.Host.Arithmetic
/-!
The texts that commands of the shell write: escapes, and formats whose directives are replaced by
arguments.
-/
namespace EditorBridge.Host

def isOctalDigit (c : Char) : Bool := '0' ≤ c && c ≤ '7'

def octal (digits : Nat) (s : List Char) : Char × List Char :=
  let taken := (s.take digits).takeWhile isOctalDigit
  (Char.ofNat (taken.foldl (fun n c => n * 8 + (c.toNat - 48)) 0 % 256), s.drop taken.length)

/-- The characters that letters behind a backslash stand for. -/
def escaped? : Char → Option Char
  | 'n' => some '\n'
  | 't' => some '\t'
  | 'r' => some '\r'
  | 'a' => some '\x07'
  | 'b' => some '\x08'
  | 'f' => some '\x0c'
  | 'v' => some '\x0b'
  | '\\' => some '\\'
  | _ => none

/-- Replaces escapes. In a format an octal escape has no zero in front. -/
def unescape (inFormat : Bool) : Nat → List Char → List Char
  | 0, _ => []
  | _, [] => []
  | fuel + 1, '\\' :: c :: rest =>
    match escaped? c with
    | some e => e :: unescape inFormat fuel rest
    | none =>
      if inFormat && isOctalDigit c then
        let (b, rest) := octal 3 (c :: rest)
        b :: unescape inFormat fuel rest
      else if c = '0' then
        let (b, rest) := octal 3 rest
        b :: unescape inFormat fuel rest
      else '\\' :: c :: unescape inFormat fuel rest
  | fuel + 1, c :: rest => c :: unescape inFormat fuel rest

/-- A directive of a format, read into its parts. -/
structure Directive where
  flags : List Char
  width : Nat
  precision : Option Nat
  conversion : Char
deriving Repr

def digitsValue (digits : List Char) : Nat := digits.foldl (fun n c => n * 10 + (c.toNat - 48)) 0

/-- Reads a directive behind its percent sign. -/
def readDirective (s : List Char) : Directive × List Char :=
  let flags := s.takeWhile "-0+ #".toList.contains
  let s := s.drop flags.length
  let width := s.takeWhile Char.isDigit
  let s := s.drop width.length
  let (precision, s) := match s with
    | '.' :: s =>
      let digits := s.takeWhile Char.isDigit
      (some (digitsValue digits), s.drop digits.length)
    | s => (none, s)
  (⟨flags, digitsValue width, precision, s.headD '%'⟩, s.drop 1)

/-- Fills a text up to the width, on the side that the flags say. -/
def Directive.pad (d : Directive) (text : List Char) : List Char :=
  let fill := List.replicate (d.width - text.length) ' '
  if d.flags.contains '-' then text ++ fill else fill ++ text

/-- Fills a number up with zeros, and then to the width. -/
def Directive.number (d : Directive) (sign digits : List Char) : List Char :=
  let least := match d.precision with
    | some n => n
    | none =>
      if d.flags.contains '0' && !d.flags.contains '-' then d.width - sign.length else 0
  d.pad (sign ++ List.replicate (least - digits.length) '0' ++ digits)

/-- A plus sign is written only if it is asked for. -/
def Directive.sign (d : Directive) (n : Int) : List Char :=
  if n < 0 then ['-'] else if d.flags.contains '+' then ['+'] else []

/-- Writes an argument as a directive says. An argument that is missing is empty, or zero. -/
def Directive.write (d : Directive) (arg : Option (List Char)) : List Char :=
  let text := arg.getD []
  let n := numberOf text
  let cut (t : List Char) : List Char := (d.precision.map t.take).getD t
  match d.conversion with
  | 's' => d.pad (cut text)
  | 'b' => d.pad (cut (unescape false (text.length + 1) text))
  | 'c' => d.pad (text.take 1)
  | 'd' | 'i' => d.number (d.sign n) (Nat.toDigits 10 n.natAbs)
  | 'u' => d.number [] (Nat.toDigits 10 n.natAbs)
  | 'o' => d.number [] (Nat.toDigits 8 n.natAbs)
  | 'x' => d.number [] (Nat.toDigits 16 n.natAbs)
  | 'X' => d.number [] ((Nat.toDigits 16 n.natAbs).map Char.toUpper)
  | _ => []

/-- Writes a format with its arguments once. Answers the arguments that are left. -/
def formatOnce : Nat → List Char → List (List Char) → List Char × List (List Char)
  | 0, _, args => ([], args)
  | _, [], args => ([], args)
  | fuel + 1, '%' :: rest, args =>
    let (d, rest) := readDirective rest
    let (text, args) :=
      if d.conversion = '%' then (['%'], args) else (d.write args.head?, args.drop 1)
    let (more, args) := formatOnce fuel rest args
    (text ++ more, args)
  | fuel + 1, '\\' :: c :: rest, args =>
    let digits := if isOctalDigit c then (rest.take 2).takeWhile isOctalDigit else []
    let (more, args) := formatOnce fuel (rest.drop digits.length) args
    (unescape true 8 ('\\' :: c :: digits) ++ more, args)
  | fuel + 1, c :: rest, args =>
    let (more, args) := formatOnce fuel rest args
    (c :: more, args)

/-- Writes a format as often as it takes to use its arguments up. -/
def format : Nat → List Char → List (List Char) → List Char
  | 0, _, _ => []
  | fuel + 1, f, args =>
    let (text, left) := formatOnce (f.length + 1) f args
    if left.isEmpty || left.length = args.length then text else text ++ format fuel f left

def takeOption (option : String) : List (List Char) → Bool × List (List Char)
  | a :: rest => if a = option.toList then (true, rest) else (false, a :: rest)
  | [] => (false, [])

/-- A line with arguments as the shell writes it; the option in front of them leaves the line
open. -/
def echoText (args : List (List Char)) : List Char :=
  let (bare, args) := takeOption "-n" args
  let text := [' '].intercalate args
  unescape false (text.length + 1) text ++ if bare then [] else ['\n']

/-- A line as the program of that name writes it, which leaves escapes alone unless it is told
otherwise. -/
def programEchoText (args : List (List Char)) : List Char :=
  let isOption (a : List Char) : Bool := match a with
    | '-' :: c :: rest => (c :: rest).all "neE".toList.contains
    | _ => false
  let options := (args.takeWhile isOption).flatten
  let text := [' '].intercalate (args.dropWhile isOption)
  let escapes := (options.reverse.find? fun c => c = 'e' || c = 'E') == some 'e'
  (if escapes then unescape false (text.length + 1) text else text) ++
    if options.contains 'n' then [] else ['\n']

end EditorBridge.Host
