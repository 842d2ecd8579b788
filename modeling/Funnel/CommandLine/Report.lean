import Funnel.CommandLine.Options
import Funnel.Json.Writer

/-!
# Reports

What a command prints, and its exit code.  A compiled funnel is printed as a statement, with the
unresolved user sets as warnings, or as a JSON object that holds both.  What the log says about the
request stands in front of the warnings.
-/

namespace Funnel.CommandLine

structure Report where
  exitCode : UInt32
  output : String
  errors : String
deriving DecidableEq, Repr

def versionText : String := "funnel 0.1.0\n"

/-! ## Compiled funnels -/

/-- The warning for an unresolved user set. -/
def warning (set : UserSet) : String :=
  let breakdown := match set.breakdown with
    | some column => " by " ++ column
    | none => ""
  "unresolved: " ++ set.collection ++ breakdown ++ "\n"

def userSetJson (set : UserSet) : Json.Value :=
  .ofRecord [("collection", .ofText set.collection),
    ("dimension", (set.breakdown.map Json.Value.ofText).getD .null)]

def compiledJson (c : Compiled) : Json.Value :=
  .ofRecord [("sql", .ofText c.sql), ("unresolved", .array (c.unresolved.sets.map userSetJson))]

def success (format : Format) (log : String) (c : Compiled) : Report :=
  match format with
  | .sql => ⟨0, c.sql ++ ";\n", log ++ String.join (c.unresolved.sets.map warning)⟩
  | .json => ⟨0, (compiledJson c).pretty ++ "\n", log⟩

def failure (log : String) (e : Error) : Report := ⟨1, "", log ++ "Error: " ++ e.message ++ "\n"⟩

/-! ## Commands -/

def Command.report (host : Host) : Command → Report
  | .version => ⟨0, versionText, ""⟩
  | .help => ⟨0, host.help, ""⟩
  | .compile inputs format =>
    let log := host.log (ignoredTexts host inputs.request)
    match compileFiles host inputs with
    | .ok c => success format log c
    | .error e => failure log e

/-- What is printed for a command line. -/
def report (host : Host) (words : List String) : Report :=
  match Command.ofWords? words with
  | some command => command.report host
  | none => ⟨2, "", host.usage words⟩

end Funnel.CommandLine
