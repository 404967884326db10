import DialogTable.Duration
import DialogTable.Script

/-!
# The compiler

The compiler decides whether a table may run. It answers a submission with a verdict; a call that
brings no verdict ends with an error.
-/

namespace DialogTable

/-- The environment that a table is compiled for. -/
inductive Target
  | sandbox
  | production
  deriving DecidableEq, Repr, Inhabited

/-- The name of an environment. -/
def Target.text : Target → String
  | sandbox => "sandbox"
  | production => "production"

/-- The environment with a name. -/
def Target.ofText? (name : String) : Option Target :=
  if name = "sandbox" then some sandbox
  else if name = "production" then some production
  else none

/-- A secret token. Only `token` shows it. -/
structure Credential where
  token : String
  deriving DecidableEq

/-- What may be shown of a credential. -/
def Credential.masked (_ : Credential) : String :=
  "Credential(****)"

/-- A table to compile, with the scripts that it needs. -/
structure Submission where
  botId : String
  tableText : String
  scripts : List ScriptSource := []
  target : Target := .sandbox
  deriving DecidableEq, Repr

/-- A message of the compiler, about a node if it names one. -/
structure Complaint where
  node : Option Int
  message : String
  deriving DecidableEq, Repr

/-- The text of a message. -/
def Complaint.text (complaint : Complaint) : String :=
  match complaint.node with
  | some node => s!"Node {node}: {complaint.message}"
  | none => complaint.message

/-- A definite answer of the compiler. -/
inductive Verdict
  | accepted (version : String)
  | rejected (complaints : List Complaint)
  /-- The compiler asks to wait, for a given time if it names one. -/
  | rateLimited (retryAfter : Option Duration)
  /-- The credential is refused. -/
  | unauthorized
  deriving DecidableEq, Repr

/-- Why a call brought no verdict. -/
inductive CompilerError
  | network (message : String)
  | timeout (after : Duration)
  | server (status : Nat) (message : String)
  | protocol (message : String)
  | invalidRequest (message : String)
  deriving DecidableEq, Repr

namespace CompilerError

/-- The wording of an error. -/
def message : CompilerError → String
  | network message => s!"Network error: {message}"
  | timeout after => s!"Compiler call timed out after {after.text}"
  | server status message => s!"Compiler server error ({status}): {message}"
  | protocol message => s!"Unexpected compiler response: {message}"
  | invalidRequest message => s!"Invalid request: {message}"

/-- Whether the same submission may succeed later. -/
def isTransient : CompilerError → Bool
  | network _ | timeout _ | server .. => true
  | protocol _ | invalidRequest _ => false

end CompilerError

end DialogTable
