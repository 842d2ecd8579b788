import Funnel.Compile

/-!
# Errors

Everything that can go wrong between the texts that a user writes and a statement, and what the user
is told.  A message says first what kind of thing is at fault.
-/

namespace Funnel

/-- What a fault is found in. -/
inductive Subject
  | filter
  | request
  | plan
  | registry
  | config
deriving DecidableEq, Repr

def Subject.heading : Subject → String
  | filter => "filter parse error"
  | request => "invalid funnel request"
  | plan => "funnel planning error"
  | registry => "metadata registry error"
  | config => "invalid configuration"

/-- Why a file does not give what it should. -/
inductive FileFault
  | missing (path : String)
  /-- The bytes of the file are no text. -/
  | notText (path : String)
  /-- The system does not read the file, for the reason that it gives. -/
  | unreadable (path reason : String)
  /-- The text is not what is expected; the complaint is that of the reader of JSON texts. -/
  | unfit (path complaint : String)
deriving DecidableEq, Repr

def FileFault.text : FileFault → String
  | missing path => "failed to read " ++ path ++ ": No such file or directory (os error 2)"
  | notText path => "failed to read " ++ path ++ ": stream did not contain valid UTF-8"
  | unreadable path reason => "failed to read " ++ path ++ ": " ++ reason
  | unfit path complaint => path ++ ": " ++ complaint

inductive Error
  | filter (cause : FilterError)
  | requestFile (fault : FileFault)
  | catalogFile (fault : FileFault)
  | configFile (fault : FileFault)
  | compile (cause : CompileError)
deriving DecidableEq

namespace Error

def subject : Error → Subject
  | filter _ => .filter
  | requestFile _ | compile (.request _) => .request
  | catalogFile _ => .registry
  | configFile _ | compile (.config _) => .config
  | compile (.endOutOfRange _) => .plan

def text : Error → String
  | filter cause => cause.text
  | requestFile fault | catalogFile fault | configFile fault => fault.text
  | compile (.config fault) => fault.text
  | compile (.request fault) => fault.text
  | compile (.endOutOfRange endDate) => "end date " ++ endDate.text ++ " is out of range"

def message (e : Error) : String := e.subject.heading ++ ": " ++ e.text

end Error

end Funnel
