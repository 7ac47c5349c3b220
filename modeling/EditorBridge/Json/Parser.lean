import EditorBridge.Json.Document
/-!
Reading a text as JSON. `Document.ofText` always answers with a document, which marks the first
fault of the text where there is one; `Json.parse` is the value of a faultless text. Arrays and
objects may be nested 127 deep.
-/
namespace EditorBridge

def Json.isSpace (c : Char) : Bool := c == ' ' || c == '\n' || c == '\t' || c == '\r'

namespace Document

/-- What follows the space at the front of a text. -/
def skipSpace (s : List Char) : List Char := s.dropWhile Json.isSpace

/-- How deep arrays and objects may be nested. -/
def maxDepth : Nat := 127

/-- A piece of a string: a character as it stands or by a short escape, or a unit of two bytes that
was written with four hexadecimal digits. -/
inductive Piece where
  | char (c : Char)
  | unit (n : Nat)

/-- The value of a hexadecimal digit in either letter case. -/
def hexValue? (c : Char) : Option Nat :=
  if '0' ≤ c ∧ c ≤ '9' then some (c.toNat - 48)
  else if 'a' ≤ c ∧ c ≤ 'f' then some (c.toNat - 87)
  else if 'A' ≤ c ∧ c ≤ 'F' then some (c.toNat - 55)
  else none

/-- The unit that four hexadecimal digits denote. -/
def hexUnit? (a b c d : Char) : Option Nat := do
  let a ← hexValue? a
  let b ← hexValue? b
  let c ← hexValue? c
  let d ← hexValue? d
  return ((a * 16 + b) * 16 + c) * 16 + d

/-- How many bytes a text has. -/
def byteCount (s : List Char) : Nat := s.foldl (fun n c => n + c.utf8Size) 0

/-- The pieces of a string after its opening quote, in reverse, and what follows the closing one. The
pieces in front of a fault are kept. -/
def pieces (acc : List Piece) : List Char → List Piece × Except TextFault (List Char)
  | [] => (acc, .error .endOfText)
  | '"' :: rest => (acc, .ok rest)
  | '\\' :: rest =>
    match rest with
    | [] => (acc, .error .endOfText)
    | '"' :: rest => pieces (.char '"' :: acc) rest
    | '\\' :: rest => pieces (.char '\\' :: acc) rest
    | '/' :: rest => pieces (.char '/' :: acc) rest
    | 'b' :: rest => pieces (.char '\x08' :: acc) rest
    | 'f' :: rest => pieces (.char '\x0c' :: acc) rest
    | 'n' :: rest => pieces (.char '\n' :: acc) rest
    | 'r' :: rest => pieces (.char '\r' :: acc) rest
    | 't' :: rest => pieces (.char '\t' :: acc) rest
    | 'u' :: a :: b :: c :: d :: rest =>
      match hexUnit? a b c d with
      | some n => pieces (.unit n :: acc) rest
      | none => (acc, .error .malformed)
    | 'u' :: rest =>
      (acc, .error (if byteCount rest < 4 then .endOfText else .malformed))
    | _ => (acc, .error .malformed)
  | c :: rest =>
    if c.toNat < 0x20 then (acc, .error .malformed) else pieces (.char c :: acc) rest

/-- The characters of a string whose pieces end with `ending`. The two units of a surrogate pair make
one character; a surrogate without its other half makes none. -/
def joinPieces (ending : Except TextFault Unit) : List Piece → Except TextFault (List Char)
  | [] => ending.map fun _ => []
  | .char c :: rest => (joinPieces ending rest).map (c :: ·)
  | .unit n :: rest =>
    if n < 0xD800 ∨ 0xDFFF < n then (joinPieces ending rest).map (Char.ofNat n :: ·)
    else if 0xDC00 ≤ n then .error .malformed
    else
      match rest with
      | .unit m :: rest =>
        if 0xDC00 ≤ m ∧ m ≤ 0xDFFF then
          (joinPieces ending rest).map
            (Char.ofNat (0x10000 + (n - 0xD800) * 0x400 + (m - 0xDC00)) :: ·)
        else .error .malformed
      | .char _ :: _ => .error .malformed
      | [] =>
        match ending with
        | .ok () => .error .malformed
        | .error fault => .error fault

/-- A string after its opening quote, and what follows it. A string with half of a surrogate pair can
be passed over, but has no value. -/
def readString (s : List Char) : Document × List Char :=
  let (ps, ending) := pieces [] s
  match joinPieces (ending.map fun _ => ()) ps.reverse, ending with
  | .ok text, .ok rest => (.string (String.ofList text), rest)
  | .error _, .ok rest => (.unreadable none, rest)
  | .ok _, .error passed => (.broken (.string passed passed), [])
  | .error fault, .error passed => (.broken (.string fault passed), [])

/-- The digits of a number, as far as they fit into 64 bits. -/
structure Significand where
  value : Nat
  /-- The power of ten that digits left out before the point, and digits kept after it, account for. -/
  exponent : Int
deriving Repr

/-- The greatest number that the digits of a number may denote. -/
def maxSignificand : Nat := Nat.pow 2 64 - 1

/-- The greatest written exponent that is not taken for an unbounded one. -/
def maxWrittenExponent : Nat := Nat.pow 2 31 - 1

def isDigit (c : Char) : Bool := '0' ≤ c && c ≤ '9'

def digitValue (c : Char) : Nat := c.toNat - 48

/-- Takes further digits in front of the point: once one does not fit, this one and all after it
only count as powers of ten. -/
def wholeDigits (sig : Significand) (full : Bool) : List Char → Significand
  | [] => sig
  | c :: rest =>
    if full || maxSignificand < sig.value * 10 + digitValue c then
      wholeDigits { sig with exponent := sig.exponent + 1 } true rest
    else wholeDigits { sig with value := sig.value * 10 + digitValue c } false rest

/-- Takes the digits after the point: once one does not fit, it and all after it are left out. -/
def fractionDigits (sig : Significand) : List Char → Significand
  | [] => sig
  | c :: rest =>
    if maxSignificand < sig.value * 10 + digitValue c then sig
    else fractionDigits ⟨sig.value * 10 + digitValue c, sig.exponent - 1⟩ rest

/-- A number with a point or an exponent; one that is too large has no value. -/
def realNumber (negative : Bool) (sig : Significand) (exponent : Int) : Document :=
  match Binary64.ofDecimal? negative sig.value (sig.exponent + exponent) with
  | some x => .number (.real x)
  | none => .unreadable none

/-- The sign of an exponent, whether it is a minus sign, and what follows it. -/
def exponentSign : List Char → Bool × List Char
  | '+' :: rest => (false, rest)
  | '-' :: rest => (true, rest)
  | s => (false, s)

/-- Reads the digits of an exponent, which counts down when `below`. -/
def readPower (negative below : Bool) (sig : Significand) (s : List Char) : Document × List Char :=
  let ds := s.takeWhile isDigit
  let rest := s.dropWhile isDigit
  if ds.isEmpty then (.broken (.number (if s.isEmpty then .endOfText else .malformed)), rest)
  else
    let e := ds.foldl (fun n c => n * 10 + digitValue c) 0
    if maxWrittenExponent < e then
      if sig.value = 0 ∨ below then (.number (.real (Binary64.zero negative)), rest)
      else (.unreadable none, rest)
    else (realNumber negative sig (if below then -(e : Int) else e), rest)

/-- Reads a number from behind the letter of its exponent on. -/
def readExponent (negative : Bool) (sig : Significand) (s : List Char) : Document × List Char :=
  readPower negative (exponentSign s).1 sig (exponentSign s).2

/-- Reads a number from behind its point on. -/
def readFraction (negative : Bool) (sig : Significand) (s : List Char) : Document × List Char :=
  let fraction := s.takeWhile isDigit
  let after := s.dropWhile isDigit
  if fraction.isEmpty then
    (.broken (.number (if s.isEmpty then .endOfText else .malformed)), after)
  else
    let sig := fractionDigits sig fraction
    match after with
    | 'e' :: after => readExponent negative sig after
    | 'E' :: after => readExponent negative sig after
    | _ => (realNumber negative sig 0, after)

/-- The number of a text without point and exponent: a whole one, where it fits into 64 bits. -/
def wholeNumber (negative : Bool) (sig : Significand) : Document :=
  if sig.exponent ≠ 0 then realNumber negative sig 0
  else if negative then
    if sig.value = 0 ∨ Nat.pow 2 63 < sig.value then realNumber true sig 0
    else .number (.integer (-(sig.value : Int)))
  else .number (.integer sig.value)

/-- Reads a number from behind its minus sign, if it has one, on. -/
def readNumber (negative : Bool) (s : List Char) : Document × List Char :=
  let ds := s.takeWhile isDigit
  let rest := s.dropWhile isDigit
  match ds with
  | [] => (.broken (.number (if s.isEmpty then .endOfText else .malformed)), rest)
  | '0' :: _ :: _ => (.broken (.number .malformed), rest)
  | _ =>
    let sig := wholeDigits ⟨0, 0⟩ false ds
    match rest with
    | '.' :: rest => readFraction negative sig rest
    | 'e' :: rest => readExponent negative sig rest
    | 'E' :: rest => readExponent negative sig rest
    | _ => (wholeNumber negative sig, rest)

def readWord (value : Document) : List Char → List Char → Document × List Char
  | [], s => (value, s)
  | _ :: _, [] => (.broken (.word .endOfText), [])
  | w :: word, c :: s =>
    if w = c then readWord value word s else (.broken (.word .malformed), s)

/-- Marks an array or object that is nested too deeply. -/
def limitDepth (depth : Nat) (d : Document) : Document :=
  if maxDepth < depth then .unreadable (some d) else d

/-- Did reading stop inside this document? -/
def stops : Document → Bool
  | .array _ fault => fault.isSome
  | .object _ fault => fault.isSome
  | .unreadable (some content) => content.stops
  | .broken _ => true
  | _ => false

mutual

/-- Reads one value, which is the content of `depth` arrays and objects; answers it and what follows.
The fuel bounds the number of steps; two steps per character and two more are enough. -/
def readValue (fuel : Nat) (depth : Nat) (s : List Char) : Document × List Char :=
  match fuel with
  | 0 => (.broken .absent, [])
  | fuel + 1 =>
    match skipSpace s with
    | [] => (.broken .absent, [])
    | 'n' :: rest => readWord .null ['u', 'l', 'l'] rest
    | 't' :: rest => readWord (.bool true) ['r', 'u', 'e'] rest
    | 'f' :: rest => readWord (.bool false) ['a', 'l', 's', 'e'] rest
    | '-' :: rest => readNumber true rest
    | '"' :: rest => readString rest
    | '[' :: rest =>
      let (items, fault, rest) := match skipSpace rest with
        | [] => ([], some .endOfText, [])
        | ']' :: rest => ([], none, rest)
        | _ => readItems fuel (depth + 1) rest
      (limitDepth (depth + 1) (.array items fault), rest)
    | '\x7b' :: rest =>
      let (members, fault, rest) := match skipSpace rest with
        | [] => ([], some .endOfText, [])
        | '\x7d' :: rest => ([], none, rest)
        | _ => readMembers fuel (depth + 1) rest
      (limitDepth (depth + 1) (.object members fault), rest)
    | c :: rest => if isDigit c then readNumber false (c :: rest) else (.broken .stray, rest)

/-- Reads the items of an array from the first value, or from the value after a comma, on. A comma
promises an item: where none follows, the last item is broken. -/
def readItems (fuel : Nat) (depth : Nat) (s : List Char) :
    List Document × Option TextFault × List Char :=
  match fuel with
  | 0 => ([], some .endOfText, [])
  | fuel + 1 =>
    let (item, rest) := readValue fuel depth s
    if item.stops then ([item], some .malformed, rest)
    else
      match skipSpace rest with
      | [] => ([item], some .endOfText, [])
      | ']' :: rest => ([item], none, rest)
      | ',' :: rest =>
        let (items, fault, rest) := readItems fuel depth rest
        (item :: items, fault, rest)
      | _ :: rest => ([item], some .malformed, rest)

/-- Reads the members of an object from the first key, or from the key after a comma, on. A comma
promises a member: where no key follows, the last member has another thing in its place. -/
def readMembers (fuel : Nat) (depth : Nat) (s : List Char) :
    List (Document × Document) × Option TextFault × List Char :=
  match fuel with
  | 0 => ([], some .endOfText, [])
  | fuel + 1 =>
    match skipSpace s with
    | '"' :: rest =>
      let (key, rest) := readString rest
      if key.stops then ([(key, .broken .stray)], some .malformed, rest)
      else
        match skipSpace rest with
        | [] => ([(key, .broken .absent)], some .endOfText, [])
        | ':' :: rest =>
          let (value, rest) := readValue fuel depth rest
          if value.stops then ([(key, value)], some .malformed, rest)
          else
            match skipSpace rest with
            | [] => ([(key, value)], some .endOfText, [])
            | '\x7d' :: rest => ([(key, value)], none, rest)
            | ',' :: rest =>
              let (members, fault, rest) := readMembers fuel depth rest
              ((key, value) :: members, fault, rest)
            | _ :: rest => ([(key, value)], some .malformed, rest)
        | _ :: rest => ([(key, .broken .stray)], some .malformed, rest)
    | other =>
      let (key, rest) := readValue fuel depth other
      ([(key, .broken .stray)], some .malformed, rest)

end

/-- The document of a text, and whether something other than space follows it. -/
def ofText (text : String) : Document × Bool :=
  let s := text.toList
  let (d, rest) := readValue (2 * s.length + 2) 0 s
  (d, !(skipSpace rest).isEmpty)

end Document

/-- The value of a text that is JSON throughout. -/
def Json.parse (text : String) : Except TextFault Json := do
  let (d, trailing) := Document.ofText text
  let value ← d.toJson
  if trailing then .error .malformed else .ok value

end EditorBridge
