import DialogTable.Patch

/-!
# Repair sessions

A session is what a repair knows between two calls: the current table, the one submitted last, the
messages about it, the log of fixes and the two counters. An account is what a repair hands back; an
event tells of its progress.
-/

namespace DialogTable.Repair

/-- What is to be repaired. -/
structure Job where
  botId : String
  tableText : String
  scripts : List ScriptSource := []
  target : Target := .sandbox
  /-- What the patch service is told about the dialog. -/
  context : String := ""
  deriving DecidableEq, Repr

/-- The phases of a repair. The last four end it. -/
inductive Phase
  | sanitizing
  | structuralFix
  | remoteValidating
  | patching
  | needsCredential
  | done
  | exhausted
  | cancelled
  | failed
  deriving DecidableEq, Repr

/-- Whether a phase ends a repair for good. -/
def Phase.isTerminal : Phase → Bool
  | done | exhausted | cancelled | failed => true
  | _ => false

/-- The name of a phase. -/
def Phase.text : Phase → String
  | sanitizing => "sanitizing"
  | structuralFix => "structural-fix"
  | remoteValidating => "remote-validating"
  | patching => "patching"
  | needsCredential => "needs-credential"
  | done => "done"
  | exhausted => "exhausted"
  | cancelled => "cancelled"
  | failed => "failed"

/-- News of a repair, with the iteration it belongs to. -/
inductive Event
  /-- A phase begins; the errors are those known at that point. -/
  | entered (iteration : Nat) (phase : Phase) (errors : List String)
  | fixesApplied (iteration : Nat) (fixes : List String)
  /-- The repair waits after a failure. -/
  | waiting (iteration attempt : Nat) (delay : Duration) (reason : String)
  deriving DecidableEq, Repr

/-- What a repair hands back. -/
structure Account where
  tableText : String := ""
  /-- The compiler has accepted the table. -/
  valid : Bool := false
  /-- The number of patches. -/
  iterations : Nat := 0
  fixesApplied : List String := []
  remainingErrors : List String := []
  version : Option String := none
  /-- The scripts that came with the accepted table. -/
  acceptedScripts : List String := []
  deriving DecidableEq, Repr

/-- What a repair knows between two calls. -/
structure Session where
  tableText : String
  iteration : Nat := 0
  lastSubmitted : Option String := none
  /-- The messages about the table submitted last. -/
  complaints : List Complaint := []
  remainingErrors : List String := []
  fixesApplied : List String := []
  /-- Transient failures in a row. -/
  transientFailures : Nat := 0
  deriving DecidableEq, Repr

namespace Session

/-- The account of the current table. -/
def account (session : Session) : Account :=
  { tableText := session.tableText
    iterations := session.iteration
    fixesApplied := session.fixesApplied
    remainingErrors := session.remainingErrors }

/-- The account of the table submitted last, or of the current one before any submission. -/
def submittedAccount (session : Session) : Account :=
  { session.account with tableText := session.lastSubmitted.getD session.tableText }

/-- The account of an accepted table. -/
def acceptedAccount (session : Session) (version : String) (scripts : List String) : Account :=
  { session.submittedAccount with
    valid := true, remainingErrors := [], version := some version, acceptedScripts := scripts }

/-- Notes the messages of a rejection. -/
def reject (session : Session) (complaints : List Complaint) : Session :=
  { session with
    complaints, remainingErrors := complaints.map Complaint.text, transientFailures := 0 }

end Session

/-- Why a repair failed. -/
inductive Error
  | retryBudgetExhausted (attempts : Nat) (last : String)
  | compiler (error : CompilerError)
  | patch (error : PatchError)
  deriving DecidableEq, Repr

/-- The wording of an error. -/
def Error.message : Error → String
  | retryBudgetExhausted attempts last =>
    s!"Gave up after {attempts} consecutive transient failures; last: {last}"
  | compiler error => s!"Remote compiler failed: {error.message}"
  | patch error => s!"Patch service failed: {error.message}"

/-- A session that waits for another credential. -/
structure Suspension where
  job : Job
  session : Session
  deriving DecidableEq, Repr

/-- The end of a repair. -/
inductive Outcome
  | done (account : Account)
  /-- The patches are spent. -/
  | exhausted (account : Account)
  | cancelled (account : Account)
  | failed (account : Account) (error : Error)
  | needsCredential (suspension : Suspension)
  deriving DecidableEq, Repr

namespace Outcome

/-- The phase that an outcome ends in. -/
def phase : Outcome → Phase
  | done _ => .done
  | exhausted _ => .exhausted
  | cancelled _ => .cancelled
  | failed .. => .failed
  | needsCredential _ => .needsCredential

/-- The account that an outcome carries. A suspended session accounts for its current table. -/
def account : Outcome → Account
  | done account | exhausted account | cancelled account | failed account _ => account
  | needsCredential suspension => suspension.session.account

/-- Whether the compiler has accepted the table. -/
def isDone : Outcome → Bool
  | done _ => true
  | _ => false

/-- The wording of the error of a failure. -/
def failure? : Outcome → Option String
  | failed _ error => some error.message
  | _ => none

end Outcome

/-- A heading and a line for each text, or nothing if there is none. -/
def listed (heading : String) (texts : List String) : List String :=
  if texts = [] then [] else heading :: texts.map ("  - " ++ ·)

/-- The lines of an account: fixes, scripts and errors. -/
def Account.lines (account : Account) : List String :=
  listed "Fixes:" account.fixesApplied
    ++ (if account.acceptedScripts = [] then []
      else ["Uploaded scripts: " ++ Text.join ", " account.acceptedScripts])
    ++ listed "Remaining errors:" account.remainingErrors

/-- The end of a repair in words. -/
def Outcome.listing (outcome : Outcome) : String :=
  Text.closeLines (match outcome with
    | done account =>
      let version := account.version.getD "?"
      s!"Accepted as version {version} after {account.iterations} iteration(s)." :: account.lines
    | exhausted account =>
      s!"Gave up after {account.iterations} iteration(s); the last submitted artifact is kept."
        :: account.lines
    | cancelled account => s!"Cancelled at iteration {account.iterations}." :: account.lines
    | failed account error => s!"Failed: {error.message}" :: account.lines
    | needsCredential suspension =>
      let iteration := suspension.session.iteration
      [s!"Suspended at iteration {iteration}: the compiler rejected the credential."])

end DialogTable.Repair
