import Funnel.Catalog.Json
import Funnel.Error

/-!
# Input files

A request, a catalog and a configuration, each from a file with a JSON text.  Only the request has
to be there: without a catalog no table is known, and without a configuration the default holds.

What a run has from outside, the files and the words of those who read them and of the log, is one
structure, so that what is said of a run is said for any of them.
-/

namespace Funnel

/-- What is found at a path. -/
inductive Content
  | text (source : String)
  | missing
  /-- The bytes of the file are no text. -/
  | notText
  /-- The system does not read the file, for a reason. -/
  | unreadable (reason : String)
deriving DecidableEq, Repr

/-- A text, or none for a file that is missing. -/
instance : Coe (Option String) Content where
  coe
    | some source => .text source
    | none => .missing

abbrev Files := String → Content

inductive Document
  | request
  | catalog
  | config
deriving DecidableEq, Repr

/-- What a run has from outside. -/
structure Host where
  files : Files
  /-- What the reader of JSON texts says of a text that is not what is expected of a document. -/
  complaint : Document → String → String
  /-- The steps that are read from the text of a request before a fault is found in it. -/
  stepsBefore : String → List StepText
  /-- What is logged about filter texts that are left out. -/
  log : List Ignored → String
  log_nil : log [] = ""
  help : String
  /-- What is said of words that are no command line. -/
  usage : List String → String

/-- The value that a file holds. -/
def load {α : Type} (host : Host) (document : Document) (fit : Json.Value → Option α)
    (path : String) : Except FileFault α :=
  match host.files path with
  | .missing => .error (.missing path)
  | .notText => .error (.notText path)
  | .unreadable reason => .error (.unreadable path reason)
  | .text source =>
    (Json.decode fit source).mapError fun _ ↦ .unfit path (host.complaint document source)

def loadRequest (host : Host) (path : String) : Except Error RequestText :=
  (load host .request RequestText.ofJson? path).mapError .requestFile

def loadCatalog (host : Host) (path : String) : Except Error Catalog :=
  (load host .catalog Catalog.ofJson? path).mapError .catalogFile

/-- A configuration from a file has to be usable. -/
def loadConfig (host : Host) (path : String) : Except Error Config := do
  let config ← (load host .config Config.ofJson? path).mapError .configFile
  match config.fault? with
  | some fault => throw (.compile (.config fault))
  | none => return config

/-- The paths of the files that a compilation reads. -/
structure Inputs where
  request : String
  catalog : Option String
  config : Option String
deriving DecidableEq, Repr

def Inputs.paths (i : Inputs) : List String := i.request :: i.catalog.toList ++ i.config.toList

/-- Compiles a request from files.  They are read in order and the first fault counts. -/
def compileFiles (host : Host) (i : Inputs) : Except Error Compiled := do
  let request ← loadRequest host i.request
  let catalog ← match i.catalog with
    | some path => loadCatalog host path
    | none => pure .empty
  let config ← match i.config with
    | some path => loadConfig host path
    | none => pure .default
  (compile config (.ofCatalog catalog) request.request).result.mapError .compile

/-- The filter texts that are left out while a request is read. -/
def ignoredTexts (host : Host) (path : String) : List Ignored :=
  match host.files path with
  | .text source =>
    let steps := match Json.decode RequestText.ofJson? source with
      | .ok request => request.steps
      | .error _ => host.stepsBefore source
    steps.filterMap StepText.ignored?
  | _ => []

/-! ## A host with words of its own -/

namespace Host

def ownHelp : String :=
  "Compile funnel queries to SQL\n\n" ++
  "Usage: funnel [OPTIONS] --request <REQUEST>\n\n" ++
  "Options:\n" ++
  "  -r, --request <REQUEST>  Funnel request (JSON)\n" ++
  "  -c, --catalog <CATALOG>  Precomputed table listings per project (JSON)\n" ++
  "      --config <CONFIG>    Compiler configuration (JSON)\n" ++
  "  -f, --format <FORMAT>    Output format [default: sql] [possible values: sql, json]\n" ++
  "  -h, --help               Print help\n" ++
  "  -V, --version            Print version\n"

def ownUsage : String :=
  "error: wrong use of options\n\n" ++
  "Usage: funnel [OPTIONS] --request <REQUEST>\n\n" ++
  "For more information, try '--help'.\n"

def ownComplaint (source : String) : String :=
  match Json.read? source with
  | none => "not a JSON text"
  | some _ => "unexpected form of a value"

/-- A host without a log.  A text is read as a whole before any step is taken from it. -/
def ofFiles (files : Files) : Host where
  files := files
  complaint _ := ownComplaint
  stepsBefore _ := []
  log _ := ""
  log_nil := rfl
  help := ownHelp
  usage _ := ownUsage

instance : Coe Files Host := ⟨ofFiles⟩

end Host

end Funnel
