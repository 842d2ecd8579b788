import Funnel.CommandLine.Files

/-!
# Options

The words of a command line.  An option takes a value, which follows it as a word of its own or is
attached to it, and no option may be given twice.  Words are taken from left to right: a request for
help or for the version is answered where it stands, unless a word before it is wrong.
-/

namespace Funnel.CommandLine

inductive Format
  | sql
  | json
deriving DecidableEq, Repr

def Format.ofName? : String → Option Format
  | "sql" => some .sql
  | "json" => some .json
  | _ => none

/-- The options that take a value. -/
inductive Key
  | request
  | catalog
  | config
  | format
deriving DecidableEq, Repr

/-- The word that names an option. -/
def Key.ofLong? : String → Option Key
  | "request" => some .request
  | "catalog" => some .catalog
  | "config" => some .config
  | "format" => some .format
  | _ => none

/-- The letter that names an option; `config` has none. -/
def Key.ofShort? : Char → Option Key
  | 'r' => some .request
  | 'c' => some .catalog
  | 'f' => some .format
  | _ => none

/-- What was given so far. -/
structure Given where
  request : Option String
  catalog : Option String
  config : Option String
  format : Option Format
deriving DecidableEq, Repr

namespace Given

def nothing : Given := ⟨none, none, none, none⟩

/-- A path that is given for the first time; it has to have a name. -/
def path? (old : Option String) (value : String) : Option (Option String) :=
  if old.isSome || value.isEmpty then none else some (some value)

/-- Notes the value of an option; there is no result if it is wrong or repeated. -/
def set? (g : Given) (key : Key) (value : String) : Option Given :=
  match key with
  | .request => (path? g.request value).map fun p ↦ { g with request := p }
  | .catalog => (path? g.catalog value).map fun p ↦ { g with catalog := p }
  | .config => (path? g.config value).map fun p ↦ { g with config := p }
  | .format =>
    if g.format.isSome then none
    else (Format.ofName? value).map fun f ↦ { g with format := some f }

end Given

/-- What a command line asks for. -/
inductive Command
  | compile (inputs : Inputs) (format : Format)
  | version
  | help
deriving DecidableEq, Repr

/-- The command at the end of the words; a request has to be given. -/
def Given.command? (g : Given) : Option Command :=
  g.request.map fun request ↦
    .compile ⟨request, g.catalog, g.config⟩ (g.format.getD .sql)

/-- What a word means that is not the value of an option. -/
inductive Word
  /-- An option; its value is attached or is the next word. -/
  | option (key : Key) (value : Option String)
  | version
  | help
  /-- Only values without an option may follow, and none is expected. -/
  | separator
deriving DecidableEq, Repr

/-- A word that begins with two hyphens. -/
def longWord? (word : List Char) : Option Word :=
  let name := word.takeWhile (· ≠ '=')
  let value := (word.drop name.length).tail?.map String.ofList
  match String.ofList name, value with
  | "version", none => some .version
  | "help", none => some .help
  | name, value => (Key.ofLong? name).map fun key ↦ .option key value

/-- A word that begins with one hyphen; a value may be attached with an equals sign or without. -/
def shortWord? : List Char → Option Word
  | 'V' :: _ => some .version
  | 'h' :: _ => some .help
  | letter :: value =>
    (Key.ofShort? letter).map fun key ↦
      .option key (match value with
        | [] => none
        | '=' :: value => some (String.ofList value)
        | value => some (String.ofList value))
  | [] => none

def word? (word : String) : Option Word :=
  match word.toList with
  | ['-', '-'] => some .separator
  | '-' :: '-' :: word => longWord? word
  | '-' :: word => shortWord? word
  | _ => none

/-- A word can be the value of the option before it unless it looks like an option itself. -/
def isValue (word : String) : Bool :=
  match word.toList with
  | ['-'] => true
  | '-' :: _ => false
  | _ => true

/-- Takes the words after those that gave `given`; `none` is a wrong use. -/
def takeWords (given : Given) : List String → Option Command
  | [] => given.command?
  | word :: rest =>
    match word? word with
    | some .version => some .version
    | some .help => some .help
    | some .separator => if rest.isEmpty then given.command? else none
    | some (.option key (some value)) => do takeWords (← given.set? key value) rest
    | some (.option key none) =>
      match rest with
      | value :: rest =>
        if isValue value then do takeWords (← given.set? key value) rest else none
      | [] => none
    | none => none

/-- The command that a command line gives. -/
def Command.ofWords? (words : List String) : Option Command := takeWords .nothing words

end Funnel.CommandLine
