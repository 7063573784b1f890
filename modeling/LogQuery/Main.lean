import LogQuery.CommandLine.Run

open LogQuery CommandLine

/-- Runs the program with the variables of its environment, prints its answer, and tells by its
exit code how it ended. -/
def main (args : List String) : IO UInt32 := do
  let env ← environmentNames.mapM fun name => do return (name, ← IO.getEnv name)
  match run (fun name => (env.lookup name).join) args with
  | .answered text success =>
    IO.println text
    return if success then 0 else 1
  | .failed message =>
    IO.eprintln ("Error: " ++ message)
    return 1
  | .usage =>
    IO.eprintln helpText
    return 2
