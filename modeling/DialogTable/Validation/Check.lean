import DialogTable.Graph
import DialogTable.Validation.Fix
import DialogTable.Validation.Policy

/-!
# Checks

Six checks look at the nodes of a table, each independent of the others: repeated numbers,
references to numbers that do not exist, missing content, nodes that nothing leads to, decisions
that lead nowhere and actions without a route for errors. A finding is an issue with the fix for it,
if there is one.
-/

namespace DialogTable.Validation

/-- A problem with one node, noted at a column. -/
structure Issue where
  node : Int
  column : Column
  message : String
  fixable : Bool
  deriving DecidableEq, Repr

/-- The text of an issue. -/
def Issue.text (issue : Issue) : String :=
  s!"Node {issue.node} [{issue.column.heading}]: {issue.message}"

/-- An issue and the fix for it. -/
structure Finding where
  issue : Issue
  fix : Option Fix
  deriving DecidableEq, Repr

namespace Finding

/-- A finding with the given fix; without one it is left to the author. -/
def ofFix (fix : Option Fix) (node : Int) (column : Column) (message : String) : Finding :=
  { issue := { node, column, message, fixable := fix.isSome }, fix }

/-- A finding that is left to the author. -/
def manual : Int → Column → String → Finding :=
  ofFix none

end Finding

/-- The numbers that occur again, each at its second occurrence. -/
def repeatedNumbers (before : List Int) : List Int → List Int
  | [] => []
  | n :: rest =>
    if before.count n = 1 then n :: repeatedNumbers (n :: before) rest
    else repeatedNumbers (n :: before) rest

/-- Each number stands for one node. -/
def checkNumbers (nodes : List Node) : List Finding :=
  (repeatedNumbers [] (Graph.numbers nodes)).map fun number =>
    .manual number .number s!"Node number {number} is declared more than once"

/-- The finding for a reference to a missing node. Of the next nodes one is re-pointed where no
other leads to a node, so that the node keeps an exit; the others are dropped. -/
def danglingFinding (policy : Policy) (known : List Int) (position : Nat) (node : Node)
    (repoint : Bool) (reference : Reference) : Finding :=
  let target := reference.target
  let label := reference.label.getD ""
  let edits (edit : Int → Edit) : Option Fix :=
    (policy.target? known node.number target).map fun newTarget =>
      { position, edit := edit newTarget }
  match reference.origin with
  | .nextNode =>
    .ofFix (if repoint then edits (.repointNextNode target)
        else some { position, edit := .dropNextNode target })
      node.number .nextNodes s!"Next node {target} does not exist"
  | .route =>
    .ofFix (edits (.repointRoute label target)) node.number .whatNext
      s!"Route '{label}' points to missing node {target}"
  | .choice =>
    .manual node.number .richContent s!"Option '{label}' points to missing node {target}"

/-- The references of a node to missing nodes. -/
def danglingReferences (graph : Graph) (node : Node) : List Reference :=
  node.references.filter fun reference => !graph.contains reference.target

/-- Each reference leads to a node. Next nodes are declared first, so the first of them that is
missing is also the first missing reference. -/
def checkReferences (policy : Policy) (graph : Graph) : List Finding :=
  let known := Graph.numbers graph.nodes
  (graph.nodes.mapIdx fun position node =>
    let exits := node.nextNodes.any graph.contains
    (danglingReferences graph node).mapIdx fun i reference =>
      danglingFinding policy known position node (i == 0 && !exits) reference).flatten

/-- A decision has something to show and an action has a command. -/
def checkContent (nodes : List Node) : List Finding :=
  nodes.filterMap fun node =>
    match node.kind with
    | .decision =>
      if node.message = none ∧ node.richContent = none then
        some (.manual node.number .message "Decision node has neither a message nor rich content")
      else none
    | .action =>
      if node.command = none then
        some (.manual node.number .command "Action node has no command")
      else none

/-- The lowest number that the runtime does not own. -/
def lowestNumber? (nodes : List Node) : Option Int :=
  ((Graph.numbers nodes).filter fun number => ¬ IsSystemNumber number).min?

/-- Where a dialog may begin: at a system node or at the lowest other number. -/
def isEntry (lowest : Option Int) (number : Int) : Bool :=
  IsSystemNumber number ∨ lowest = some number

/-- Another node leads to each node at which a dialog does not begin. -/
def checkReached (graph : Graph) : List Finding :=
  let lowest := lowestNumber? graph.nodes
  ((Graph.numbers graph.nodes).eraseDups.filter fun number =>
      !isEntry lowest number && !(graph.edgesTo number).any fun edge => edge.source != number).map
    fun number => .manual number .number s!"Node {number} is not referenced by any other node"

/-- The decisions, the first one of each number. -/
def firstDecisions (nodes : List Node) : List Node :=
  (nodes.filter (·.kind = .decision)).eraseDupsBy fun a b => a.number == b.number

/-- A decision leads on, or is tagged as an end. -/
def checkExits (policy : Policy) (graph : Graph) : List Finding :=
  ((firstDecisions graph.nodes).filter fun node =>
      graph.outDegree node.number = 0 && !policy.isEndpoint node).map
    fun node => .manual node.number .nextNodes
      "Decision node has no outgoing path and is not tagged as an endpoint"

/-- An action with a command has a route for errors. -/
def checkErrorRoutes (policy : Policy) (nodes : List Node) : List Finding :=
  let known := Graph.numbers nodes
  (nodes.mapIdx fun position node =>
    if node.kind = .action ∧ node.command ≠ none ∧ ¬ node.routes.any Route.isErrorRoute then
      let fix := (policy.target? known node.number node.number).map fun newTarget =>
        { position, edit := .insertErrorRoute newTarget }
      [Finding.ofFix fix node.number .whatNext s!"Action node has no '{errorLabel}' route"]
    else []).flatten

/-- Runs every check. -/
def findings (policy : Policy) (nodes : List Node) : List Finding :=
  let graph := Graph.ofNodes nodes
  checkNumbers nodes ++ checkReferences policy graph ++ checkContent nodes ++ checkReached graph
    ++ checkExits policy graph ++ checkErrorRoutes policy nodes

/-- The issues of nodes. -/
def issues (policy : Policy) (nodes : List Node) : List Issue :=
  (findings policy nodes).map Finding.issue

end DialogTable.Validation
