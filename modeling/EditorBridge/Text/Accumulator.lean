import EditorBridge.Text.Utf8
/-!
A buffer of bytes from which text is taken. Bytes are added in chunks; an extraction takes all
the text that they give, each maximal invalid part as one U+FFFD, and leaves only a sequence at the
end that further bytes may still complete. It starts over at the front of the buffer each time,
where `Decoder` goes on from the state that it kept.
-/
namespace EditorBridge.Utf8

/-- What the first byte of a text begins, and how many bytes behind it belong to that. -/
inductive Lead where
  | whole (behind : Nat)
  | invalid (behind : Nat)
  /-- The text ends inside the sequence. -/
  | unfinished
deriving DecidableEq, Repr

/-- Looks at a first byte and as many followers as there are. -/
def lead (b : UInt8) (rest : List UInt8) : Lead :=
  match following? b with
  | none => .invalid 0
  | some n =>
    let k := continuations (secondLow b) (secondHigh b) n rest
    if k = n then .whole n else if k = rest.length then .unfinished else .invalid k

/-- How much of a byte string a validator accepts. -/
structure Verdict where
  /-- The length of the longest well-formed prefix. -/
  valid : Nat
  /-- The length of the invalid part behind the prefix; none when nothing or only an unfinished
  sequence stands there. -/
  invalid : Option Nat
deriving DecidableEq, Repr

/-- Goes over whole sequences up to the first that is none. -/
def validate (bytes : List UInt8) : Verdict :=
  match bytes with
  | [] => ⟨0, none⟩
  | b :: rest =>
    match lead b rest with
    | .whole k =>
      let v := validate (rest.drop k)
      { v with valid := v.valid + (k + 1) }
    | .invalid k => ⟨0, some (k + 1)⟩
    | .unfinished => ⟨0, none⟩
termination_by bytes.length
decreasing_by
  simp only [List.length_drop, List.length_cons]
  omega

theorem validate_invalid_pos {bytes : List UInt8} {len : Nat}
    (h : (validate bytes).invalid = some len) : 0 < len := by
  induction bytes using validate.induct with
  | case1 => simp [validate] at h
  | case2 b rest k hLead ih =>
    rw [validate, hLead] at h
    exact ih h
  | case3 b rest k hLead =>
    simp only [validate, hLead, Option.some.injEq] at h
    omega
  | case4 b rest hLead => simp [validate, hLead] at h

theorem ne_nil_of_validate_invalid {bytes : List UInt8} {len : Nat}
    (h : (validate bytes).invalid = some len) : bytes ≠ [] := by
  rintro rfl
  simp [validate] at h

/-- The bytes that have given no text yet. -/
structure Accumulator where
  buffer : List UInt8
deriving DecidableEq, Repr

namespace Accumulator

/-- An accumulator that has seen nothing. -/
def empty : Accumulator := ⟨[]⟩

def add (a : Accumulator) (bytes : List UInt8) : Accumulator := ⟨a.buffer ++ bytes⟩

/-- Takes the longest well-formed prefix and the invalid part behind it, again and again until there
is no such part. `done` is the text so far. -/
def release (done : List Char) (buffer : List UInt8) : List Char × List UInt8 :=
  let v := validate buffer
  let done := done ++ lossy (buffer.take v.valid)
  match _hInvalid : v.invalid with
  | none => (done, buffer.drop v.valid)
  | some len => release (done ++ [replacement]) ((buffer.drop v.valid).drop len)
termination_by buffer.length
decreasing_by
  have hPos := validate_invalid_pos _hInvalid
  have hNonempty := List.length_pos_iff.mpr (ne_nil_of_validate_invalid _hInvalid)
  simp only [List.length_drop]
  omega

/-- All the text that the buffer gives, or none when it gives no text. -/
def extract? (a : Accumulator) : Option (List Char) × Accumulator :=
  let (text, buffer) := release [] a.buffer
  (if text = [] then none else some text, ⟨buffer⟩)

end Accumulator

/-- Text is extracted until there is none. -/
inductive Extracts : Accumulator → List (List Char) → Accumulator → Prop
  | done {a b : Accumulator} (h : a.extract? = (none, b)) : Extracts a [] b
  | text {a b c : Accumulator} {text : List Char} {texts : List (List Char)}
      (h : a.extract? = (some text, b)) (hRest : Extracts b texts c) :
      Extracts a (text :: texts) c

/-- Chunks are added one after the other, and behind each of them text is extracted until there is
none. -/
inductive Gathers : Accumulator → List (List UInt8) → List (List Char) → Accumulator → Prop
  | done (a : Accumulator) : Gathers a [] [] a
  | chunk {a b c : Accumulator} {bytes : List UInt8} {chunks : List (List UInt8)}
      {texts later : List (List Char)} (hTexts : Extracts (a.add bytes) texts b)
      (hRest : Gathers b chunks later c) : Gathers a (bytes :: chunks) (texts ++ later) c

end EditorBridge.Utf8
