import DialogTable.Table

/-!
# Scripts

An action runs a command. The runtime provides some commands; any other is the name of a custom
script, which has to be uploaded with the table. An inventory lists the commands that actions use
and compares them with the uploads.
-/

namespace DialogTable

/-- The source of a custom script. -/
structure ScriptSource where
  name : String
  source : String
  deriving DecidableEq, Repr, Inhabited

namespace Script

/-- The command without effect. -/
def noop : String := "MockAction"

/-- The commands that the runtime provides. -/
def systemCommands : List String :=
  [noop, "SetVar", "SetFormID", "GetValue", "ValidateEmail", "ValidatePhone", "ValidateDate",
    "ValidateRegex", "ValidateZip", "SendEmail", "SendSMS", "HandleBotError", "PostEventToBot",
    "ChatToLiveAgent", "BotToPlatform", "UserPlatformRouting", "EventsToGoogleAnalytics",
    "GenerateTranscript"]

/-- Whether the runtime provides a command. Case counts. -/
def isSystem (name : String) : Bool :=
  name ∈ systemCommands

/-! ### Uploads -/

/-- The names of the scripts that the compiler has accepted, in ascending order. -/
structure Uploads where
  names : List String := []
  deriving DecidableEq, Repr, Inhabited

/-- Puts a name at its place in ascending order, unless it is there. -/
def insertName (name : String) : List String → List String
  | [] => [name]
  | n :: rest =>
    if name = n then n :: rest
    else if name < n then name :: n :: rest
    else n :: insertName name rest

namespace Uploads

/-- Adds a name. -/
def insert (uploads : Uploads) (name : String) : Uploads :=
  { names := insertName name uploads.names }

/-- The uploads with the given names. -/
def ofList (names : List String) : Uploads :=
  names.foldl insert {}

/-- Removes a name. -/
def erase (uploads : Uploads) (name : String) : Uploads :=
  { names := uploads.names.filter (· ≠ name) }

/-- Whether a name is there. -/
def contains (uploads : Uploads) (name : String) : Bool :=
  name ∈ uploads.names

/-- Removes a name, and tells whether it was there. -/
def forget (uploads : Uploads) (name : String) : Uploads × Bool :=
  (uploads.erase name, uploads.contains name)

/-- Adds the custom scripts among the names that came with an accepted table. -/
def insertAccepted (uploads : Uploads) (names : List String) : Uploads :=
  (names.filter (!isSystem ·)).foldl insert uploads

/-- The number of names. -/
def size (uploads : Uploads) : Nat :=
  uploads.names.length

end Uploads

/-! ### Inventory -/

/-- A command with the nodes that run it. -/
structure Reference where
  name : String
  isSystem : Bool
  /-- Only custom scripts are uploaded. -/
  uploaded : Bool
  nodes : List Int
  deriving DecidableEq, Repr

/-- The commands of actions with the numbers of the nodes, in order. -/
def uses (nodes : List Node) : List (String × Int) :=
  nodes.filterMap fun node =>
    if node.kind = .action then node.commandName.map fun name => (name, node.number) else none

/-- The commands in use, compared with the uploads. -/
structure Inventory where
  /-- In the order of first use. -/
  references : List Reference
  /-- The uploads that no action uses, in ascending order. -/
  unused : List String
  deriving DecidableEq, Repr

namespace Inventory

/-- Adds a use to the reference with its name. If there is none, a new reference stands behind the
others. -/
def addUse (uploads : Uploads) (use : String × Int) : List Reference → List Reference
  | [] =>
    [{ name := use.1
       isSystem := isSystem use.1
       uploaded := !isSystem use.1 && uploads.contains use.1
       nodes := [use.2] }]
  | reference :: rest =>
    if reference.name = use.1 then
      { reference with nodes := reference.nodes ++ [use.2] } :: rest
    else reference :: addUse uploads use rest

/-- The inventory of nodes. -/
def ofNodes (uploads : Uploads) (nodes : List Node) : Inventory :=
  let references := (uses nodes).foldl (fun references use => addUse uploads use references) []
  { references
    unused := uploads.names.filter fun name => !references.any (·.name = name) }

/-- The commands of the runtime that are used. -/
def systemCommands (inventory : Inventory) : List String :=
  (inventory.references.filter (·.isSystem)).map Reference.name

/-- The custom scripts that are used. -/
def customCommands (inventory : Inventory) : List String :=
  (inventory.references.filter (!·.isSystem)).map Reference.name

/-- The custom scripts that are used and not uploaded. -/
def missing (inventory : Inventory) : List String :=
  (inventory.references.filter fun reference => !reference.isSystem && !reference.uploaded).map
    Reference.name

/-- Names between commas. -/
def nameList (names : List String) : String :=
  if names = [] then "(none)" else Text.join ", " names

/-- One line for each part of the inventory. -/
def listing (inventory : Inventory) : String :=
  Text.closeLines
    ["System commands: " ++ nameList inventory.systemCommands,
      "Custom commands: " ++ nameList inventory.customCommands,
      "Missing uploads: " ++ nameList inventory.missing,
      "Unused uploads:  " ++ nameList inventory.unused]

end Inventory

/-! ### Removal -/

/-- Whether a node is an action that runs a command. -/
def runs (name : String) (node : Node) : Bool :=
  node.kind = .action ∧ node.command.map Text.trimmed = some name

/-- The positions of the nodes that run a command. -/
def positions (name : String) (nodes : List Node) : List Nat :=
  (nodes.zipIdx.filter fun (node, _) => runs name node).map Prod.snd

/-- Puts the command without effect into the node at a position, and adds its number to those of the
nodes before. -/
def silence (removal : Table × List Int) (position : Nat) : Table × List Int :=
  match removal.1.nodes[position]? with
  | none => removal
  | some node => (removal.1.editAt position (·.withCommand noop), removal.2 ++ [node.number])

/-- Puts the command without effect in the place of a custom script. The numbers of the edited nodes
come with the table. A command of the runtime stays. -/
def remove (table : Table) (name : String) : Table × List Int :=
  let name := Text.trimmed name
  if isSystem name then (table, [])
  else (positions name table.nodes).foldl silence (table, [])

end Script

end DialogTable
