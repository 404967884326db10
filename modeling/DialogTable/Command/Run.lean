import DialogTable.Command.Repair
import DialogTable.Flow.Descriptor
import DialogTable.Flow.Partition
import DialogTable.Graph

/-!
# Running the table tool

The tool reads its arguments and the settings, and runs one command.
-/

namespace DialogTable.Command

variable {σ : Type} {m : Type → Type} [Monad m]

/-- Reads the settings and takes over the variables of the environment. -/
def readSettings (host : Host σ m) (path : Option String) : Part m Settings := do
  let settings ←
    match path with
    | none => pure {}
    | some path =>
      let result ← host.load path
      match result with
      | .error error => host.fail (SettingsError.unreadable path error.reason).message
      | .ok text => host.orFail SettingsError.message (Settings.ofText text)
  let values ← Settings.variableNames.mapM fun name => do
    let value ← host.variableValue name
    return (name, value)
  return settings.override fun name => (values.lookup name).join

/-- Reads the plan of flows. -/
def readPlan (host : Host σ m) (path : String) : Part m FlowPlan := do
  let text ← host.readText path
  match Flow.listOfText? text with
  | none => host.fail "Failed to parse flows JSON: the text does not describe flows"
  | some flows => host.orFail FlowError.message (FlowPlan.ofFlows flows)

/-- Reads a table. -/
def readTable (host : Host σ m) (path : String) : Part m Table := do
  return Table.ofText (← host.readText path)

/-- Checks a table, and writes the fixed one if fixes are asked for. Only without them does an issue
matter for the exit. -/
def validate (host : Host σ m) (policy : Validation.Policy) (table : String) (fix : Bool)
    (output : Option String) : Part m Unit := do
  let text ← host.readText table
  let report := Validation.validate policy fix text
  host.note report.listing
  match report.fixedText with
  | some fixed => host.writeText output fixed
  | none => if !report.valid then throw .invalid

/-- The nodes of one flow. -/
def flowNodes (host : Host σ m) (nodes : List Node) (flows : Option String) (flow : String) :
    Part m (List Node) := do
  match flows with
  | none => host.fail "--flow requires --flows <descriptors.json>"
  | some flows =>
    let partition := Partition.ofNodes nodes (← readPlan host flows)
    match partition.bucket? flow with
    | none => host.fail s!"Unknown flow '{flow}'"
    | some bucket => return bucket.nodes

/-- Shows the graph of a table or of one flow. The flows are read only if one of them is asked
for. -/
def graph (host : Host σ m) (table : String) (flows flow : Option String) : Part m Unit := do
  let table ← readTable host table
  let nodes ←
    match flow with
    | none => pure table.nodes
    | some flow => flowNodes host table.nodes flows flow
  let graph := Graph.ofNodes nodes
  host.print graph.listing
  host.print s!"{graph.nodes.length} node(s), {graph.edges.length} edge(s)\n"

/-- Shows the nodes of each flow. -/
def partition (host : Host σ m) (table flows : String) : Part m Unit := do
  let table ← readTable host table
  let plan ← readPlan host flows
  host.print (Partition.ofNodes table.nodes plan).listing

/-- Shows the scripts of a table. -/
def scripts (host : Host σ m) (table : String) (uploaded : List String) : Part m Unit := do
  let table ← readTable host table
  host.print (Script.Inventory.ofNodes (.ofList uploaded) table.nodes).listing

/-- Removes a script from a table. -/
def removeScript (host : Host σ m) (table name : String) (output : Option String) :
    Part m Unit := do
  let table ← readTable host table
  let (edited, numbers) := Script.remove table name
  let list := Text.join ", " (numbers.map toString)
  host.note s!"Replaced '{name}' on {numbers.length} node(s): [{list}]\n"
  host.writeText output edited.toText

/-- Runs a command. -/
def TableCommand.run (host : Host σ m) (settings : Settings) : TableCommand → Part m Unit
  | validate table fix output => Command.validate host settings.policy table fix output
  | graph table flows flow => Command.graph host table flows flow
  | partition table flows => Command.partition host table flows
  | scripts table uploaded => Command.scripts host table uploaded
  | removeScript table name output => Command.removeScript host table name output
  | repair options => Command.repair host settings options

/-- How the tool is used. -/
def usage : String :=
  Text.closeLines [
    "Check, show and repair a dialog table",
    "",
    "Usage: dialog-table [-c <CONFIG>] <COMMAND>",
    "",
    "Commands:",
    "  validate <TABLE> [--fix] [-o <OUTPUT>]",
    "  graph <TABLE> [--flows <FLOWS>] [--flow <FLOW>]",
    "  partition <TABLE> --flows <FLOWS>",
    "  scripts <TABLE> [--uploaded <NAMES>]",
    "  remove-script <TABLE> <NAME> [-o <OUTPUT>]",
    "  repair <TABLE> --bot-id <BOT_ID> [--script <NAME=PATH>] [--context <FILE>]",
    "         [--target <sandbox|production>] [-o <OUTPUT>]"]

/-- The version of both tools. -/
def versionLine : String := "dialog-table 0.1.0\n"

/-- Ends a tool without running it. -/
def stop (host : Host σ m) (usage : String) : Stop → Part m Unit
  | .misuse => do
    host.note usage
    throw .misuse
  | .help => host.print usage
  | .version => host.print versionLine

/-- The exit of a part that is a whole command. -/
def exitOf (part : Part m Unit) : m Exit := do
  match ← part.run with
  | .ok () => return .success
  | .error exit => return exit

/-- Runs the tool. -/
def runTable (host : Host σ m) (arguments : List String) : m Exit :=
  exitOf (m := m) <|
    match Invocation.read arguments with
    | .error reason => stop host usage reason
    | .ok invocation => do
      let settings ← readSettings host invocation.settings
      invocation.command.run host settings

end DialogTable.Command
