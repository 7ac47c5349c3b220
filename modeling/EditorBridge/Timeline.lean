/-!
Systems under a clock. A system reacts at once to what has happened until it is quiet, and then
time passes to the next moment at which it wakes by itself. `settle` reacts at the present moment,
`passTo` lets time pass up to a limit, and `await` does so only until a condition holds. All three
take fuel, which bounds the number of reactions.
-/
namespace EditorBridge

/-- How a system reports and takes time. Times are in nanoseconds. -/
structure Timeline (σ ε : Type) where
  now : σ → Nat
  /-- The system at another time, with nothing else changed. -/
  moveTo : Nat → σ → σ
  /-- What happens at the present moment, if anything does, and its effects. -/
  react : σ → Option (σ × List ε)
  /-- When a quiet system wakes by itself, if it does. -/
  wake : σ → Option Nat

namespace Timeline

variable {σ ε : Type}

/-- Reacts until the system is quiet. -/
def settle (t : Timeline σ ε) : Nat → σ → σ × List ε
  | 0, s => (s, [])
  | fuel + 1, s =>
    match t.react s with
    | none => (s, [])
    | some (s, effects) =>
      let (s, more) := settle t fuel s
      (s, effects ++ more)

/-- The next moment up to a limit at which a quiet system wakes. A moment that has passed is now. -/
def next? (t : Timeline σ ε) (limit : Nat) (s : σ) : Option Nat :=
  match t.wake s with
  | none => none
  | some time => if limit < time then none else some (max (t.now s) time)

/-- Lets time pass up to a limit, with everything that happens on the way. -/
def passTo (t : Timeline σ ε) (limit : Nat) : Nat → σ → σ × List ε
  | 0, s => (s, [])
  | fuel + 1, s =>
    let (s, effects) := t.settle (fuel + 1) s
    match t.next? limit s with
    | none => (t.moveTo (max (t.now s) limit) s, effects)
    | some time =>
      let (s, more) := passTo t limit fuel (t.moveTo time s)
      (s, effects ++ more)

def pass (t : Timeline σ ε) (span fuel : Nat) (s : σ) : σ × List ε :=
  t.passTo (t.now s + span) fuel s

/-- Lets time pass until a condition holds in a quiet system, or else up to a limit. -/
def await (t : Timeline σ ε) (done : σ → Bool) (limit : Nat) : Nat → σ → σ × List ε
  | 0, s => (s, [])
  | fuel + 1, s =>
    let (s, effects) := t.settle (fuel + 1) s
    if done s then (s, effects)
    else
      match t.next? limit s with
      | none => (t.moveTo (max (t.now s) limit) s, effects)
      | some time =>
        let (s, more) := await t done limit fuel (t.moveTo time s)
        (s, effects ++ more)

/-- The earlier of two moments, of which either may be missing. -/
def sooner : Option Nat → Option Nat → Option Nat
  | none, b => b
  | a, none => a
  | some a, some b => some (min a b)

/-- The earliest of some moments. -/
def soonest (moments : List Nat) : Option Nat :=
  moments.foldl (fun least m => sooner least (some m)) none

end Timeline
end EditorBridge
