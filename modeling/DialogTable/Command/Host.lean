import DialogTable.Http
import DialogTable.Text.Blank

/-!
# What commands may do

A command reads and writes files, prints, asks for lines of input and lets a repair use the network.
Commands are written over any host that offers this. A command that cannot go on prints an error and
ends.
-/

namespace DialogTable.Command

/-- Why a file cannot be read or written. -/
inductive FileError
  | notFound
  | permissionDenied
  | notDirectory
  | isDirectory
  | nameTooLong
  /-- The path holds the character with the code zero. -/
  | zeroInName
  /-- The bytes of the file are no text. -/
  | notText
  | other (message : String)
  deriving DecidableEq, Repr

namespace FileError

/-- The number, the kind and the wording of an error of the system. -/
def system? : FileError → Option (Nat × String × String)
  | notFound => some (2, "NotFound", "No such file or directory")
  | permissionDenied => some (13, "PermissionDenied", "Permission denied")
  | notDirectory => some (20, "NotADirectory", "Not a directory")
  | isDirectory => some (21, "IsADirectory", "Is a directory")
  | nameTooLong => some (36, "InvalidFilename", "File name too long")
  | zeroInName | notText | other _ => none

/-- The wording of an error without a number. -/
def plainReason : FileError → String
  | zeroInName => "file name contained an unexpected NUL byte"
  | notText => "stream did not contain valid UTF-8"
  | other message => message
  | _ => ""

/-- The wording of an error. -/
def reason (error : FileError) : String :=
  match error.system? with
  | some (code, _, message) => s!"{message} (os error {code})"
  | none => error.plainReason

/-- An error with everything that is known about it. -/
def detail (error : FileError) : String :=
  match error.system? with
  | some (code, kind, message) =>
    s!"Os \x7b code: {code}, kind: {kind}, message: \"{message}\" \x7d"
  | none =>
    match error with
    | zeroInName => s!"Error \x7b kind: InvalidInput, message: \"{error.plainReason}\" \x7d"
    | _ => error.plainReason

end FileError

/-- How a command ends. -/
inductive Exit
  | success
  | failure
  /-- The table is not valid. -/
  | invalid
  /-- The arguments make no command. -/
  | misuse
  deriving DecidableEq, Repr

/-- The exit code of a program. -/
def Exit.code : Exit → UInt32
  | success => 0
  | failure => 1
  | invalid | misuse => 2

/-- The network as both services are reached over it. Its state is changed by each exchange. -/
structure Network (σ : Type) where
  compiler : σ → Http.Request → Http.Answer × σ
  patch : σ → Http.Request → Http.Answer × σ

/-- What a command is run by. -/
structure Host (σ : Type) (m : Type → Type) where
  load : String → m (Except FileError String)
  save : String → String → m (Except FileError Unit)
  /-- Prints on the output. -/
  print : String → m Unit
  /-- Prints where errors and progress are shown. -/
  note : String → m Unit
  /-- The next line of input, or nothing at the end of it. -/
  readLine : m (Option String)
  /-- The value of a variable of the environment. -/
  variableValue : String → m (Option String)
  network : Network σ
  /-- Runs a computation that exchanges messages over the network. -/
  withNetwork : {α : Type} → (σ → α × σ) → m α

/-- A part of a command: it may end the command. -/
abbrev Part (m : Type → Type) (α : Type) : Type :=
  ExceptT Exit m α

namespace Host

variable {σ : Type} {m : Type → Type} [Monad m]

/-- Ends the command with an error. -/
def fail {α : Type} (host : Host σ m) (message : String) : Part m α := do
  host.note s!"\nError: {message}\n"
  throw .failure

/-- Takes a result, or ends the command with its error. -/
def orFail {ε α : Type} (host : Host σ m) (wording : ε → String) : Except ε α → Part m α
  | .ok value => return value
  | .error error => host.fail (wording error)

/-- Reads a file. -/
def readText (host : Host σ m) (path : String) : Part m String := do
  let result ← host.load path
  host.orFail (fun error => s!"Failed to read '{path}': {error.reason}") result

/-- Writes to a file if one is named, else prints. -/
def writeText (host : Host σ m) (path : Option String) (text : String) : Part m Unit := do
  match path with
  | none => host.print text
  | some path =>
    let result ← host.save path text
    host.orFail (fun error => s!"Failed to write '{path}': {error.reason}") result

/-- Runs a computation over the network. -/
def overNetwork {α : Type} (host : Host σ m) (exchange : σ → α × σ) : Part m α :=
  ExceptT.lift (host.withNetwork exchange)

/-- Asks for a line. At the end of the input the line is empty. -/
def ask (host : Host σ m) (question : String) : Part m String := do
  host.note s!"> {question}: "
  let line ← host.readLine
  return Text.trimmed (line.getD "")

end Host

end DialogTable.Command
