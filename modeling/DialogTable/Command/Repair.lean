import DialogTable.Command.Host
import DialogTable.Command.Invocation
import DialogTable.Repair.Remote

/-!
# The command that repairs a table

The command reads the table, the scripts and the context, and runs a repair with the services of the
settings. When the compiler refuses the token it asks for another one and resumes, as often as
patience allows.
-/

namespace DialogTable.Command

open DialogTable.Repair (Job Outcome Remote Run Setup)

/-- The line that tells of a phase. -/
def phaseLine : Repair.Entry → Option String
  | .event (.entered iteration phase _) => some s!"  [{iteration}] {phase.text}\n"
  | _ => none

/-- A command that keeps asking gives up after this many refused tokens. -/
def patience : Nat := 1000000

section

variable {σ : Type} {m : Type → Type} [Monad m]

/-- Tells of the phases in a log. -/
def tellPhases (host : Host σ m) (log : List Repair.Entry) : Part m Unit :=
  (log.filterMap phaseLine).forM fun line => host.note line

/-- Reads a script: its name and the path of its source, with an equals sign between them. -/
def readScript (host : Host σ m) (argument : String) : Part m ScriptSource := do
  match Text.splitFirst '=' argument.toList with
  | none => host.fail s!"Expected NAME=PATH, got '{argument}'"
  | some (name, path) =>
    let source ← host.readText (.ofList (Text.trim path))
    return { name := .ofList (Text.trim name), source }

/-- Reads what is to be repaired. -/
def readJob (host : Host σ m) (options : RepairOptions) : Part m Job := do
  let tableText ← host.readText options.table
  let scripts ← options.scripts.mapM (readScript host)
  let context ←
    match options.context with
    | none => pure ""
    | some path => host.readText path
  return {
    botId := options.botId
    tableText := tableText
    scripts := scripts
    target := options.target
    context := context }

/-- The credential of the settings, or one that is asked for. -/
def firstCredential (host : Host σ m) (settings : Settings) : Part m Credential := do
  match settings.credential with
  | .ok credential => return credential
  | .error _ =>
    let token ← host.ask "Enter compiler API token"
    return { token }

/-- Resumes a suspended repair with one token after another, up to a number of them. -/
def converse (host : Host σ m) (setup : Setup σ) :
    Nat → Outcome × Run σ → Part m Outcome
  | left + 1, (.needsCredential suspension, run) => do
    tellPhases host run.log
    host.note s!"The compiler rejected the token at iteration {suspension.session.iteration}.\n"
    let token ← host.ask "Enter a new compiler API token"
    let next : Setup σ := { setup with credential := { token } }
    let ending ← host.overNetwork fun network =>
      let ending := next.resume suspension { run with services := network, log := [] }
      (ending, ending.2.services)
    converse host next left ending
  | _, (outcome, run) => do
    tellPhases host run.log
    return outcome

/-- Runs a repair to its end and hands back the table. -/
def carryOut (host : Host σ m) (attempts : Nat) (setup : Setup σ) (output : Option String) :
    Part m Unit := do
  let ending ← host.overNetwork fun network =>
    let ending := setup.start network {}
    (ending, ending.2.services)
  let outcome ← converse host setup attempts ending
  host.note outcome.listing
  host.writeText output outcome.account.tableText
  if !outcome.account.valid then throw .invalid

/-- Repairs a table, and asks for a number of other tokens at most. -/
def repairWithin (attempts : Nat) (host : Host σ m) (settings : Settings)
    (options : RepairOptions) : Part m Unit := do
  let job ← readJob host options
  let remote ← host.orFail SettingsError.message (Remote.ofSettings settings)
  let credential ← firstCredential host settings
  let setup : Setup σ :=
    { services := remote.services host.network.compiler host.network.patch
      limits := settings.limits
      policy := settings.policy
      job := job
      credential := credential }
  carryOut host attempts setup options.output

/-- Repairs a table. -/
def repair (host : Host σ m) (settings : Settings) (options : RepairOptions) : Part m Unit :=
  repairWithin patience host settings options

end

end DialogTable.Command
