/-!
UTF-8 in pieces and as a whole. The decoder takes a stream one byte at a time, so it cannot depend
on how the stream was cut; a byte that cannot belong to a well-formed sequence becomes U+FFFD, once
per maximal invalid part. `lossy` says the same of a whole byte string.
-/
namespace EditorBridge.Utf8

def encodeChar (c : Char) : List UInt8 := String.utf8EncodeChar c

def encode (s : List Char) : List UInt8 := s.flatMap encodeChar

/-- Stands for bytes that are no text. -/
def replacement : Char := '\uFFFD'

/-- How many bytes must follow a first byte; none for a byte that starts no sequence. -/
def following? (b : UInt8) : Option Nat :=
  if b < 0x80 then some 0
  else if 0xc2 ≤ b ∧ b ≤ 0xdf then some 1
  else if 0xe0 ≤ b ∧ b ≤ 0xef then some 2
  else if 0xf0 ≤ b ∧ b ≤ 0xf4 then some 3
  else none

/-- The least byte that may stand second: it keeps out forms that are longer than needed. -/
def secondLow (b : UInt8) : UInt8 :=
  if b = 0xe0 then 0xa0 else if b = 0xf0 then 0x90 else 0x80

/-- The greatest byte that may stand second: it keeps out surrogates and all beyond U+10FFFF. -/
def secondHigh (b : UInt8) : UInt8 :=
  if b = 0xed then 0x9f else if b = 0xf4 then 0x8f else 0xbf

/-- The bits that a first byte with `n` followers gives to the code point. -/
def leadBits (b : UInt8) (n : Nat) : Nat :=
  match n with
  | 0 => b.toNat
  | 1 => b.toNat % 32
  | 2 => b.toNat % 16
  | _ => b.toNat % 8

/-- A sequence that has begun: its bytes, what is missing, and the range of the next byte. -/
structure Partial where
  /-- The bytes seen, the last one first. -/
  seen : List UInt8
  /-- How many bytes are missing, at least one. -/
  missing : Nat
  low : UInt8
  high : UInt8
  bits : Nat
deriving DecidableEq, Repr

/-- The state of a decoder between two bytes: a sequence that has begun, if there is one. -/
structure Decoder where
  pending : Option Partial
deriving DecidableEq, Repr

namespace Decoder

def empty : Decoder := ⟨none⟩

/-- Takes a byte that begins a sequence, or cannot. -/
def start (b : UInt8) : List Char × Decoder :=
  match following? b with
  | none => ([replacement], empty)
  | some 0 => ([Char.ofNat b.toNat], empty)
  | some n => ([], ⟨some ⟨[b], n, secondLow b, secondHigh b, leadBits b n⟩⟩)

/-- Takes one byte and answers the characters that it completes, at most two. A byte that cannot
continue the sequence that has begun ends it as invalid, and starts anew. -/
def push (d : Decoder) (b : UInt8) : List Char × Decoder :=
  match d.pending with
  | none => start b
  | some p =>
    if p.low ≤ b ∧ b ≤ p.high then
      let bits := p.bits * 64 + b.toNat % 64
      if p.missing ≤ 1 then ([Char.ofNat bits], empty)
      else ([], ⟨some ⟨b :: p.seen, p.missing - 1, 0x80, 0xbf, bits⟩⟩)
    else
      let (text, d) := start b
      (replacement :: text, d)

/-- Takes the bytes of a chunk in turn. `done` holds the characters so far, the last one first. -/
def pushAll (done : List Char) (d : Decoder) : List UInt8 → List Char × Decoder
  | [] => (done, d)
  | b :: rest =>
    let (text, d) := d.push b
    pushAll (text.reverseAux done) d rest

/-- Takes the bytes of a chunk in turn. -/
def feed (d : Decoder) (chunk : List UInt8) : List Char × Decoder :=
  let (text, d) := pushAll [] d chunk
  (text.reverse, d)

/-- Takes chunks in turn; each gives a text of its own. -/
def feedAll (d : Decoder) : List (List UInt8) → List (List Char) × Decoder
  | [] => ([], d)
  | chunk :: rest =>
    let (text, d) := d.feed chunk
    let (texts, d) := d.feedAll rest
    (text :: texts, d)

/-- The bytes kept back because more may follow. -/
def keptBack (d : Decoder) : List UInt8 :=
  match d.pending with
  | none => []
  | some p => p.seen.reverse

end Decoder

/-- How many bytes of a text, up to `n`, continue a sequence, the first of them in the given
range. -/
def continuations (low high : UInt8) : Nat → List UInt8 → Nat
  | 0, _ => 0
  | _ + 1, [] => 0
  | n + 1, b :: rest =>
    if low ≤ b ∧ b ≤ high then continuations 0x80 0xbf n rest + 1 else 0

/-- The bits of the first byte, and behind them six of each follower. -/
def codePoint (bits : Nat) (rest : List UInt8) : Nat :=
  rest.foldl (fun acc b => acc * 64 + b.toNat % 64) bits

/-- The text of a whole byte string: each well-formed sequence is a character, and each maximal
invalid part, one left unfinished at the end included, is one U+FFFD. -/
def lossy (bytes : List UInt8) : List Char :=
  match bytes with
  | [] => []
  | b :: rest =>
    match following? b with
    | none => replacement :: lossy rest
    | some n =>
      let k := continuations (secondLow b) (secondHigh b) n rest
      let c := if k = n then Char.ofNat (codePoint (leadBits b n) (rest.take n)) else replacement
      c :: lossy (rest.drop k)
termination_by bytes.length
decreasing_by all_goals simp; try omega

def lossyString (bytes : List UInt8) : String := String.ofList (lossy bytes)

/-- The text of a byte string that is well formed throughout. -/
def decode? (bytes : List UInt8) : Option (List Char) :=
  let (text, d) := Decoder.empty.feed bytes
  if d.pending.isNone ∧ encode text = bytes then some text else none

end EditorBridge.Utf8
