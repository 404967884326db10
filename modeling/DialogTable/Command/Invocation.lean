import DialogTable.Command.Arguments
import DialogTable.Compiler

/-!
# The commands of the table tool

The tool checks, shows and repairs one table. Settings may be named before the command or among its
own arguments, where they count first.
-/

namespace DialogTable.Command

/-- The arguments of a repair. -/
structure RepairOptions where
  table : String
  botId : String
  /-- Scripts, each a name and a path with an equals sign between them. -/
  scripts : List String := []
  /-- The file with what the patch service is told. -/
  context : Option String := none
  target : Target := .sandbox
  output : Option String := none
  deriving DecidableEq, Repr

/-- A command with its arguments. Tables, flows and outputs are paths. -/
inductive TableCommand
  | validate (table : String) (fix : Bool) (output : Option String)
  | graph (table : String) (flows flow : Option String)
  | partition (table flows : String)
  | scripts (table : String) (uploaded : List String)
  | removeScript (table name : String) (output : Option String)
  | repair (options : RepairOptions)
  deriving DecidableEq, Repr

/-- A command with the path of the settings. -/
structure Invocation where
  settings : Option String := none
  command : TableCommand
  deriving DecidableEq, Repr

namespace Invocation

/-! ### Options -/

def settingsOption : OptionForm := { long := "config", short := some 'c' }

def outputOption : OptionForm := { long := "output", short := some 'o' }

def targetOption : OptionForm :=
  { long := "target", accepts := fun name => (Target.ofText? name).isSome }

/-- How a command is read. -/
structure Form where
  name : String
  operands : Nat
  options : List OptionForm
  /-- There is no command if something is missing. -/
  command? : Arguments → Option TableCommand

/-- The single operand. -/
def operand? (arguments : Arguments) : Option String :=
  match arguments.operands with
  | [operand] => some operand
  | _ => none

/-- The parts of a list of names. -/
def nameParts (names : String) : List String :=
  (Text.splitAt (· = ',') names.toList).map String.ofList

/-- The commands. -/
def forms : List Form := [
  { name := "validate", operands := 1
    options := [{ long := "fix", takesValue := false }, outputOption]
    command? := fun arguments => do
      return .validate (← operand? arguments) (arguments.has "fix") (arguments.value? "output") },
  { name := "graph", operands := 1
    options := [{ long := "flows" }, { long := "flow" }]
    command? := fun arguments => do
      return .graph (← operand? arguments) (arguments.value? "flows") (arguments.value? "flow") },
  { name := "partition", operands := 1
    options := [{ long := "flows" }]
    command? := fun arguments => do
      return .partition (← operand? arguments) (← arguments.value? "flows") },
  { name := "scripts", operands := 1
    options := [{ long := "uploaded", repeatable := true }]
    command? := fun arguments => do
      return .scripts (← operand? arguments) ((arguments.values "uploaded").flatMap nameParts) },
  { name := "remove-script", operands := 2
    options := [outputOption]
    command? := fun arguments =>
      match arguments.operands with
      | [table, name] => some (.removeScript table name (arguments.value? "output"))
      | _ => none },
  { name := "repair", operands := 1
    options := [{ long := "bot-id" }, { long := "script", repeatable := true },
      { long := "context" }, targetOption, outputOption]
    command? := fun arguments => do
      return .repair {
        table := ← operand? arguments
        botId := ← arguments.value? "bot-id"
        scripts := arguments.values "script"
        context := arguments.value? "context"
        target := ((arguments.value? "target").bind Target.ofText?).getD .sandbox
        output := arguments.value? "output" } }]

/-- The name of the command that explains the others. -/
def helpName : String := "help"

/-- What may stand before a command. -/
def outerGrammar : Grammar :=
  { options := [settingsOption], words := helpName :: forms.map Form.name, hasVersion := true }

/-- What may stand behind the name of a command. -/
def Form.grammar (form : Form) : Grammar :=
  { options := settingsOption :: form.options, operands := form.operands }

/-- Help is given for the whole or for one command. -/
def readHelp (topics : List String) : Stop :=
  match topics with
  | [] => .help
  | [topic] => if topic ∈ outerGrammar.words then .help else .misuse
  | _ => .misuse

/-- Reads the arguments of the tool. -/
def read (arguments : List String) : Except Stop Invocation := do
  let (outer, rest) ← outerGrammar.read arguments
  match rest with
  | [] => throw .misuse
  | name :: rest =>
    match forms.find? (·.name = name) with
    | none => throw (readHelp rest)
    | some form =>
      let (inner, _) ← form.grammar.read rest
      match form.command? inner with
      | none => throw .misuse
      | some command =>
        return { settings := (inner.value? "config").or (outer.value? "config"), command }

end Invocation

end DialogTable.Command
