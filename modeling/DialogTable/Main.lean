import DialogTable.Command.Generate

/-!
# The program

The first argument `sample` runs the generator with the other arguments; anything else is for the
table tool. This build has no network: every request of a repair is lost.
-/

namespace DialogTable.Program

open Command

/-- The error of a file operation. -/
def fileError : IO.Error → FileError
  | .noFileOrDirectory .. => .notFound
  | .permissionDenied .. => .permissionDenied
  | .inappropriateType .. => .isDirectory
  | error => .other (toString error)

/-- Runs a file operation. -/
def tryFile {α : Type} (operation : IO α) : IO (Except FileError α) := do
  match ← operation.toBaseIO with
  | .ok value => return .ok value
  | .error error => return .error (fileError error)

/-- The next line of the input. -/
def readLine : IO (Option String) := do
  let line ← (← IO.getStdin).getLine
  return if line.isEmpty then none else some line

/-- A network without a connection. -/
def offline : Network Unit :=
  { compiler := fun network _ => (.lost "no network", network)
    patch := fun network _ => (.lost "no network", network) }

/-- The system that the program runs on. -/
def system : Host Unit IO :=
  { load := fun path => tryFile (IO.FS.readFile path)
    save := fun path text => tryFile (IO.FS.writeFile path text)
    print := fun text => IO.print text
    note := fun text => IO.eprint text
    readLine := readLine
    variableValue := fun name => IO.getEnv name
    network := offline
    withNetwork := fun exchange => return (exchange ()).1 }

/-- A tape of draws from a seed. -/
def tapeOf (seed : UInt64) (position : Nat) : Nat :=
  (mixHash seed (hash position)).toNat

/-- Runs the tool that the arguments are for. -/
def run : List String → IO Exit
  | "sample" :: arguments => do
    let seed ← IO.rand 0 Text.countLimit
    runGenerator system arguments (tapeOf (UInt64.ofNat seed))
  | arguments => runTable system arguments

end DialogTable.Program

/-- Runs the program. -/
def main (arguments : List String) : IO UInt32 := do
  let exit ← DialogTable.Program.run arguments
  return exit.code
