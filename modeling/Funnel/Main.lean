import Funnel.CommandLine.Report

/-!
# The command `funnel`

Reads the files that the command line names and prints the report.
-/

namespace Funnel.CommandLine

/-- What is found at a path. -/
def readContent (path : String) : IO Content := do
  try
    match String.fromUTF8? (← IO.FS.readBinFile path) with
    | some source => return .text source
    | none => return .notText
  catch
    | .noFileOrDirectory .. => return .missing
    | e => return .unreadable (toString e)

/-- The files that a command reads. -/
def inputContents (command : Option Command) : IO (List (String × Content)) :=
  match command with
  | some (.compile inputs _) => inputs.paths.mapM fun path ↦ return (path, ← readContent path)
  | _ => return []

/-- A line of the log. -/
def logLine (i : Ignored) : String :=
  "WARN ignoring unparsable step filter collection=" ++ i.collection ++ " filter=" ++ i.text ++
    " error=" ++ (Error.filter i.cause).message ++ "\n"

/-- The host of a run that reads these files, with a log. -/
def loggingHost (contents : List (String × Content)) : Host :=
  { Host.ofFiles fun path ↦ (contents.lookup path).getD .missing with
    log := fun ignored ↦ String.join (ignored.map logLine)
    log_nil := rfl }

end Funnel.CommandLine

open Funnel.CommandLine in
def main (words : List String) : IO UInt32 := do
  let contents ← inputContents (Command.ofWords? words)
  let r := report (loggingHost contents) words
  (← IO.getStdout).putStr r.output
  (← IO.getStderr).putStr r.errors
  return r.exitCode
