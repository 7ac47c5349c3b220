import EditorBridge.Path.Relative
/-!
Where and how much is logged. The environment gives the values, and explicit ones override it. On
request the name of the log file carries the number of the process.
-/
namespace EditorBridge

/-- How much is logged, where, and in which form. -/
structure LogConfig where
  level : String
  file : Option Path
  json : Bool
deriving DecidableEq, Repr

namespace LogConfig

/-- What holds when nothing is set. -/
def standard : LogConfig := ⟨"info", none, false⟩

/-- The path with the number of the process between the stem and the extension of its name. A path
that ends in no name stays as it is. -/
def uniquePath (path : Path) (pid : Nat) : Path :=
  match path.fileName? with
  | none => path
  | some name =>
    let (stem, extension) := Path.splitExtension name
    let base := Utf8.lossyString stem ++ "." ++ toString pid
    let unique := match extension.bind Utf8.decode? with
      | some text => base ++ "." ++ String.ofList text
      | none => base
    path.withFileName (Path.ofString unique).bytes

/-- What the environment says. -/
def ofLookup (lookup : String → Option String) (pid : Nat) : LogConfig where
  level := (lookup "RUST_LOG").getD "info"
  file := (lookup "NBJAVA_LOG_FILE").map fun text =>
    let path := Path.ofString text
    if lookup "NBJAVA_LOG_UNIQUE" = some "true" then uniquePath path pid else path
  json := lookup "NBJAVA_LOG_JSON" = some "true"

/-- Explicit values go before those of the environment. -/
def withOverrides (config : LogConfig) (level : Option String) (file : Option Path) : LogConfig :=
  { config with level := level.getD config.level, file := file.or config.file }

end LogConfig
end EditorBridge
