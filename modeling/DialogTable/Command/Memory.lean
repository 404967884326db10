import DialogTable.Command.Files

/-!
# A host in memory

Commands can be run without a system: over files, input and variables that are values. What they
print is collected. Such a run is a function of the memory it starts with.
-/

namespace DialogTable.Command

/-- What a run in memory works on. -/
structure Memory (σ : Type) where
  files : Files
  /-- The input that is left. -/
  input : List Char
  /-- The variables of the environment. -/
  environment : List (String × String)
  /-- What was printed on the output. -/
  printed : String := ""
  /-- What was printed of errors and progress. -/
  noted : String := ""
  network : σ

namespace Memory

variable {σ : Type}

/-- The next line of the input without its end, and the memory without it. -/
def readLine (memory : Memory σ) : Option String × Memory σ :=
  if memory.input = [] then (none, memory)
  else
    (some (.ofList (memory.input.takeWhile (· ≠ '\n'))),
      { memory with input := (memory.input.dropWhile (· ≠ '\n')).drop 1 })

/-- Writes a file. If it cannot be written nothing changes. -/
def save (memory : Memory σ) (path text : String) : Except FileError Unit × Memory σ :=
  match memory.files.save path text with
  | .ok files => (.ok (), { memory with files })
  | .error error => (.error error, memory)

/-- Runs a computation over the network. -/
def exchange {α : Type} (run : σ → α × σ) (memory : Memory σ) : α × Memory σ :=
  let (value, network) := run memory.network
  (value, { memory with network })

/-- The host that works on a memory. -/
def host (network : Network σ) : Host σ (StateM (Memory σ)) where
  load path := fun memory => (memory.files.load path, memory)
  save path text := fun memory => memory.save path text
  print text := fun memory => ((), { memory with printed := memory.printed ++ text })
  note text := fun memory => ((), { memory with noted := memory.noted ++ text })
  readLine := readLine
  variableValue name := fun memory => (memory.environment.lookup name, memory)
  network := network
  withNetwork run := exchange run

/-! ### Small facts -/

theorem readLine_of_input_nil {memory : Memory σ} (h : memory.input = []) :
    memory.readLine = (none, memory) := by
  simp [readLine, h]

end Memory

end DialogTable.Command
