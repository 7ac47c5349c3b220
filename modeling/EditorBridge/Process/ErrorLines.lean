import EditorBridge.Text.Blank
import EditorBridge.Text.Utf8
/-!
The lines that a child writes to its standard error. A line ends with a line feed or with the
stream; blank characters at its end do not count, and a line without others is left out. The first
line that is not well-formed text ends the reading.
-/
namespace EditorBridge.Process

/-- A line as it is handed on. -/
def lineText (line : List Char) : String :=
  String.ofList (Text.trimRightChars line)

/-- A reader of lines: the bytes of the line that is not yet complete, the last one first, and
whether the stream is still read. -/
structure ErrorLines where
  held : List UInt8
  reading : Bool
deriving DecidableEq, Repr

namespace ErrorLines

/-- A reader at the beginning of a stream. -/
def empty : ErrorLines := ⟨[], true⟩

/-- Ends a line: its text, unless it is blank. -/
def endLine (r : ErrorLines) : ErrorLines × List String :=
  match Utf8.decode? r.held.reverse with
  | none => (⟨[], false⟩, [])
  | some line => (⟨[], true⟩, if lineText line = "" then [] else [lineText line])

/-- Takes one byte; a line feed completes the line. -/
def push (r : ErrorLines) (b : UInt8) : ErrorLines × List String :=
  if !r.reading then (r, [])
  else if b = 10 then ({ r with held := b :: r.held }).endLine
  else ({ r with held := b :: r.held }, [])

/-- Takes bytes in their order, and gives the lines that they complete. -/
def feed (r : ErrorLines) : List UInt8 → ErrorLines × List String
  | [] => (r, [])
  | b :: rest =>
    let (r, lines) := r.push b
    let (r, more) := r.feed rest
    (r, lines ++ more)

/-- The stream has ended; what is left of it is the last line. -/
def finish (r : ErrorLines) : ErrorLines × List String :=
  if r.reading && !r.held.isEmpty then
    let (r, lines) := r.endLine
    ({ r with reading := false }, lines)
  else ({ r with reading := false }, [])

end ErrorLines
end EditorBridge.Process
