import EditorBridge.Path.Basic
/-!
A path relative to a directory, and the names at the end of a path. What is cut away is decided
component by component; what stays keeps its bytes, but for separators and single dots at its ends.
-/
namespace EditorBridge.Path

/-- Takes a name and the separator behind it off the front; none when it carries no component or
nothing is left. -/
def nextComponent? (body : List UInt8) : Option (Component × List UInt8) :=
  match body with
  | [] => none
  | b :: rest =>
    let name := (b :: rest).takeWhile (· ≠ separator)
    let after := (b :: rest).drop (name.length + 1)
    match component? name with
    | some c => some (c, after)
    | none => nextComponent? after
termination_by body.length
decreasing_by simp only [List.length_drop, List.length_cons]; omega

/-- A body without what carries no component at its front. -/
def trimFront (body : List UInt8) : List UInt8 :=
  match body with
  | [] => []
  | b :: rest =>
    let name := (b :: rest).takeWhile (· ≠ separator)
    match component? name with
    | some _ => b :: rest
    | none => trimFront ((b :: rest).drop (name.length + 1))
termination_by body.length
decreasing_by simp only [List.length_drop, List.length_cons]; omega

/-- As `trimFront` at the end, for bytes in reverse order. -/
def trimReversed (reversed : List UInt8) : List UInt8 :=
  match reversed with
  | [] => []
  | b :: rest =>
    let name := (b :: rest).takeWhile (· ≠ separator)
    match component? name with
    | some _ => b :: rest
    | none => trimReversed ((b :: rest).drop (name.length + 1))
termination_by reversed.length
decreasing_by simp only [List.length_drop, List.length_cons]; omega

/-- A body without what carries no component at its end. -/
def trimEnd (body : List UInt8) : List UInt8 := (trimReversed body.reverse).reverse

/-- Takes the given components off the front of a body. -/
def stripBody : List Component → List UInt8 → Option (List UInt8)
  | [], body => some body
  | c :: rest, body =>
    match nextComponent? body with
    | none => none
    | some (d, after) => if c = d then stripBody rest after else none

/-- The bytes at the start of a path that belong to a root or to a dot that stands alone. -/
def startLength (bytes : List UInt8) : Nat :=
  if (startComponent? bytes).1.isSome then 1 else 0

/-- The path without the components of `base` at its front; none when they are not there. -/
def stripPrefix? (p base : Path) : Option Path :=
  match base.components with
  | [] =>
    let n := startLength p.bytes
    some ⟨p.bytes.take n ++ trimEnd (p.bytes.drop n)⟩
  | c :: rest =>
    let (first, body) := startComponent? p.bytes
    let left := match first with
      | some d => if c = d then stripBody rest body else none
      | none => stripBody (c :: rest) body
    left.map fun bytes => ⟨trimEnd (trimFront bytes)⟩

/-- The last component, if it is a name. -/
def fileName? (p : Path) : Option (List UInt8) :=
  match p.components.getLast? with
  | some (.normal name) => some name
  | _ => none

/-- A body without its last name. -/
def dropLastName (body : List UInt8) : List UInt8 :=
  let reversed := trimReversed body.reverse
  (trimReversed (reversed.drop ((reversed.takeWhile (· ≠ separator)).length + 1))).reverse

/-- The path with another name in place of its last one; a path without a name gets it behind. -/
def withFileName (p : Path) (name : List UInt8) : Path :=
  match p.fileName? with
  | none => p.join ⟨name⟩
  | some _ =>
    let n := startLength p.bytes
    Path.join ⟨p.bytes.take n ++ dropLastName (p.bytes.drop n)⟩ ⟨name⟩

/-- A name parted at its last dot; a dot at the very start parts nothing. -/
def splitExtension (name : List UInt8) : List UInt8 × Option (List UInt8) :=
  let extension := (name.reverse.takeWhile (· ≠ dot)).reverse
  let stem := name.take (name.length - extension.length - 1)
  if extension.length = name.length ∨ stem = [] then (name, none) else (stem, some extension)

end EditorBridge.Path
