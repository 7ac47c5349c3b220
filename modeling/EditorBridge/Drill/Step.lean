import EditorBridge.Duration
import EditorBridge.Json.Value
import EditorBridge.Keyed
import EditorBridge.Path.Basic
import EditorBridge.Text.Utf8
/-!
Drills are lists of steps, written as JSON, that exercise a part of the library; what each step shows
is recorded as JSON too. A step is an array with its name first. This module reads the arguments of
steps. An argument that is missing is null, and stands for nothing where a text, a number or a list
is wanted.
-/
namespace EditorBridge.Drill

def hexNibble (c : Char) : UInt8 :=
  let n := c.toNat
  (if n ≥ 97 then n - 87 else if n ≥ 65 then n - 55 else n - 48).toUInt8

def hexBytes : List Char → List UInt8
  | a :: b :: rest => (hexNibble a * 16 + hexNibble b) :: hexBytes rest
  | _ => []

/-- Bytes are written as text or in hexadecimal digits. -/
def bytesOf (j : Json) : List UInt8 :=
  match j with
  | .string s => Utf8.encode s.toList
  | .object _ => hexBytes ((j.get "hex").string?.getD "").toList
  | _ => []

def pathOf (j : Json) : Path := ⟨bytesOf j⟩

def optPath (j : Json) : Option Path := if j.isNull then none else some (pathOf j)

def strOf (j : Json) : String := j.string?.getD ""

def optStr (j : Json) : Option String := j.string?

def intOf (j : Json) : Int := j.integer?.getD 0

def natOf (j : Json) : Nat := j.nat?.getD 0

/-- Ports are written as numbers. -/
scoped instance portOfNat : Coe Nat UInt16 := ⟨Nat.toUInt16⟩

def listOf (j : Json) : List Json := j.items?.getD []

def strings (j : Json) : List String := (listOf j).map strOf

/-- An argument of a step, the name being the one in front. -/
def arg (step : List Json) (n : Nat) : Json := (step[n]?).getD .null

def stepName (step : List Json) : String := strOf (arg step 0)

def stepsOf (j : Json) : List (List Json) := (listOf (j.get "steps")).map listOf

def envOf (j : Json) : Keyed String := ((j.members?).getD []).map fun (k, v) => (k, strOf v)

def optArg (step : List Json) (n : Nat) : Option Json := step[n]?

def durationOf (secs nanos : Json) : Duration := ⟨natOf secs * 1000000000 + natOf nanos⟩

def millis (n : Nat) : Nat := n * 1000000

/-- A number of milliseconds, or else a given length of time. -/
def limitOf (j : Json) (standard : Duration) : Duration :=
  match j.nat? with
  | some ms => .ofMillis ms
  | none => standard

/-- The span that passes after each step, in nanoseconds. -/
def settling : Nat := millis 1

/-- Bounds the number of things that happen in a step. -/
def fuel : Nat := 1000000

/-- Takes steps in their order and records each. -/
def runSteps {σ : Type} (f : σ → List Json → σ × Json) (s : σ) (steps : List (List Json)) :
    σ × List Json :=
  let (s, out) := steps.foldl (fun (s, out) step => let (s, r) := f s step; (s, r :: out)) (s, [])
  (s, out.reverse)

end EditorBridge.Drill
