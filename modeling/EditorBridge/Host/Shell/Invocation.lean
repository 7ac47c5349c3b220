import EditorBridge.Host.Shell.Commands
/-!
How a shell is invoked: its options, and the script that it is to run, which is given as text, comes
in, or is read from a file.
-/
namespace EditorBridge.Host

inductive ScriptSource where
  | text (script : List Char)
  | input
  | missing (reason : String)
deriving Repr

structure ShellOptions where
  isGiven : Bool
  fromInput : Bool
  exitsOnError : Bool
deriving Repr

structure Invocation where
  source : ScriptSource
  exitsOnError : Bool
  name : Option (List Char)
  arguments : List (List Char)
deriving Repr

namespace Invocation

def readLetters (o : ShellOptions) : List Char → Except String ShellOptions
  | [] => .ok o
  | c :: rest =>
    if c = 'c' then readLetters { o with isGiven := true } rest
    else if c = 's' then readLetters { o with fromInput := true } rest
    else if c = 'e' then readLetters { o with exitsOnError := true } rest
    else if "abfhimnopquvxCEIV".toList.contains c then readLetters o rest
    else .error (String.ofList ("Illegal option -".toList ++ [c]))

/-- Reads options up to the first argument that is none. -/
def readOptions (o : ShellOptions) : List (List Char) →
    Except String (ShellOptions × List (List Char))
  | [] => .ok (o, [])
  | arg :: rest =>
    match arg with
    | ['-'] | ['-', '-'] => .ok (o, rest)
    | '-' :: letters => do
      let o ← readLetters o letters
      match letters.contains 'o', rest with
      | true, _ :: rest => readOptions o rest
      | _, rest => readOptions o rest
    | '+' :: _ :: _ => readOptions o rest
    | _ => .ok (o, arg :: rest)

/-- The invocation of a shell with some arguments, in a directory. Files hold nothing. -/
def ofArguments (place : Place) (args : List (List Char)) : Invocation :=
  match readOptions ⟨false, false, false⟩ args with
  | .error reason => ⟨.missing reason, false, none, []⟩
  | .ok (o, args) =>
    let source (s : ScriptSource) (name : Option (List Char)) (args : List (List Char)) :
        Invocation := ⟨s, o.exitsOnError, name, args⟩
    match o.isGiven, args with
    | true, [] => source (.missing "-c requires an argument") none []
    | true, script :: args => source (.text script) args.head? (args.drop 1)
    | false, [] => source .input none []
    | false, file :: rest =>
      if o.fromInput then source .input none args
      else
        match Tree.resolve place (String.ofList file) with
        | .ok _ => source (.text []) (some file) rest
        | .error _ =>
          source (.missing ("cannot open " ++ String.ofList file ++ ": No such file")) none []

end Invocation
end EditorBridge.Host
