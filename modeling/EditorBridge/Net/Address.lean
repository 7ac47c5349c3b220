/-!
Internet addresses of both versions and their text. An address of version six is written with its
longest run of two or more zero groups left out, the first of equally long ones; one that stands for
an address of version four ends in that address.
-/
namespace EditorBridge.Net

/-- An address; one of version six has eight groups. -/
inductive Address where
  | v4 (a b c d : UInt8)
  | v6 (groups : List UInt16)
deriving DecidableEq, Repr, Inhabited

/-- The value of a digit below the base, in either letter case. -/
def digitValue? (base : Nat) (c : Char) : Option Nat :=
  let n := c.toNat
  let v? := if 48 ≤ n ∧ n ≤ 57 then some (n - 48)
    else if 97 ≤ n ∧ n ≤ 102 then some (n - 87)
    else if 65 ≤ n ∧ n ≤ 70 then some (n - 55)
    else none
  v?.filter (· < base)

/-- Reads at least one digit; none when there are more than `maxDigits`. -/
def readNumber? (base maxDigits : Nat) (s : List Char) : Option (Nat × Nat × List Char) :=
  let ds := s.takeWhile fun c => (digitValue? base c).isSome
  if ds = [] ∨ maxDigits < ds.length then none
  else some (ds.foldl (fun n c => n * base + (digitValue? base c).getD 0) 0, ds.length,
    s.drop ds.length)

/-- A decimal number below 256 without leading zeros. -/
def readOctet? (s : List Char) : Option (UInt8 × List Char) :=
  match readNumber? 10 3 s with
  | some (n, digits, rest) =>
    if 255 < n ∨ (1 < digits ∧ s.head? = some '0') then none else some (n.toUInt8, rest)
  | none => none

/-- Takes the given character off the front. -/
def expect? (c : Char) : List Char → Option (List Char)
  | d :: rest => if c = d then some rest else none
  | [] => none

/-- Four numbers with dots between them. -/
def readV4? (s : List Char) : Option ((UInt8 × UInt8 × UInt8 × UInt8) × List Char) := do
  let (a, s) ← readOctet? s
  let s ← expect? '.' s
  let (b, s) ← readOctet? s
  let s ← expect? '.' s
  let (c, s) ← readOctet? s
  let s ← expect? '.' s
  let (d, s) ← readOctet? s
  return ((a, b, c, d), s)

def group (high low : UInt8) : UInt16 := high.toUInt16 * 256 + low.toUInt16

/-- Reads groups with colons between them, at most `limit`, and where two groups have room an
address of version four in their place, which ends them. Answers also whether it did. -/
def readGroups (first : Bool) : Nat → List Char → List UInt16 × Bool × List Char
  | 0, s => ([], false, s)
  | limit + 1, s =>
    let body? := if first then some s else expect? ':' s
    let v4? := if 0 < limit then body?.bind readV4? else none
    match v4? with
    | some ((a, b, c, d), rest) => ([group a b, group c d], true, rest)
    | none =>
      match body?.bind (readNumber? 16 4) with
      | some (n, _, rest) =>
        let (groups, v4, rest) := readGroups false limit rest
        (n.toUInt16 :: groups, v4, rest)
      | none => ([], false, s)

/-- Reads the groups of an address of version six; two colons stand for at least one zero group. -/
def readV6? (s : List Char) : Option (List UInt16 × List Char) :=
  let (front, v4, rest) := readGroups true 8 s
  if front.length = 8 then some (front, rest)
  else if v4 then none
  else do
    let rest ← expect? ':' rest
    let rest ← expect? ':' rest
    let (back, _, rest) := readGroups true (7 - front.length) rest
    return (front ++ List.replicate (8 - front.length - back.length) 0 ++ back, rest)

/-- Reads an address of either version, which must be the whole text. -/
def Address.parse? (text : String) : Option Address :=
  let s := text.toList
  match readV4? s with
  | some ((a, b, c, d), rest) => if rest = [] then some (.v4 a b c d) else none
  | none =>
    match readV6? s with
    | some (groups, rest) => if rest = [] then some (.v6 groups) else none
    | none => none

def dotted (a b c d : UInt8) : String :=
  ".".intercalate [toString a, toString b, toString c, toString d]

/-- A group without leading zeros. -/
def groupText (g : UInt16) : String := String.ofList (Nat.toDigits 16 g.toNat)

def groupsText (groups : List UInt16) : String := ":".intercalate (groups.map groupText)

/-- The start and length of the first of the longest runs of zeros. `i` is the place of the first
group, `current` the run that reaches up to it, `best` the best run before. -/
def longestZeros (i : Nat) (current best : Nat × Nat) : List UInt16 → Nat × Nat
  | [] => best
  | g :: rest =>
    if g = 0 then
      let current := if current.2 = 0 then (i, 1) else (current.1, current.2 + 1)
      longestZeros (i + 1) current (if best.2 < current.2 then current else best) rest
    else longestZeros (i + 1) (0, 0) best rest

/-- The shortest text of an address. -/
def Address.text : Address → String
  | .v4 a b c d => dotted a b c d
  | .v6 [0, 0, 0, 0, 0, 0xffff, g, h] =>
    "::ffff:" ++ dotted (g / 256).toUInt8 g.toUInt8 (h / 256).toUInt8 h.toUInt8
  | .v6 groups =>
    let (start, length) := longestZeros 0 (0, 0) (0, 0) groups
    if 1 < length then
      groupsText (groups.take start) ++ "::" ++ groupsText (groups.drop (start + length))
    else groupsText groups

/-- Is it an address of the machine itself? -/
def Address.isLoopback : Address → Bool
  | .v4 a _ _ _ => a == 127
  | .v6 groups => groups == [0, 0, 0, 0, 0, 0, 0, 1]

/-- The address with a port behind it; colons inside the address need brackets. -/
def Address.withPort (address : Address) (port : UInt16) : String :=
  match address with
  | .v4 .. => address.text ++ ":" ++ toString port
  | .v6 _ => "[" ++ address.text ++ "]:" ++ toString port

end EditorBridge.Net
