import EditorBridge.CommandLine
/-!
The program: reads the command line and the environment and prints the report.
-/
open EditorBridge

def environmentVariables : List String :=
  ["PWD", ConfigBuilder.portVariable, ConfigBuilder.serverPathVariable, "RUST_LOG",
    "NBJAVA_LOG_FILE", "NBJAVA_LOG_JSON", "NBJAVA_LOG_UNIQUE"]

/-- Stands for the number of the process, since nothing is run for a report. -/
def reportedProcess : Nat := 0

def main (arguments : List String) : IO UInt32 := do
  match Invocation.ofArguments arguments with
  | .error e =>
    IO.eprintln ("error: " ++ e.message)
    return 2
  | .ok invocation =>
    let environment ← environmentVariables.filterMapM fun name => do
      return (← IO.getEnv name).map (name, ·)
    let lookup (name : String) : Option String := environment.lookup name
    let current := Path.ofString ((lookup "PWD").getD ".")
    match invocation.report lookup (Path.ofString "..") current reportedProcess with
    | .error e =>
      IO.eprintln ("Error: " ++ e.message)
      return 1
    | .ok lines =>
      lines.forM IO.println
      return 0
