import DialogTable.Flow.Plan
import DialogTable.Sample.Draw
import DialogTable.Table

/-!
# Sample tables

A sample is a table of flows without issues: a welcome, a chain of nodes for each flow that leads on
to the next flow, and an error handler that every action of a chain falls back to. Defects spoil
some of its nodes on request.
-/

namespace DialogTable.Sample

/-- What a sample is to be like. -/
structure Shape where
  flows : Nat := 3
  /-- The least number of nodes of a flow. -/
  minimum : Nat := 3
  /-- The greatest number of nodes of a flow. -/
  maximum : Nat := 12
  defects : Nat := 0
  deriving DecidableEq, Repr

/-- A flow has a node and fits into the block that it is allocated in. -/
def Shape.IsPossible (shape : Shape) : Prop :=
  0 < shape.minimum ∧ shape.minimum ≤ shape.maximum ∧ (shape.maximum : Int) < FlowPlan.blockSize

instance (shape : Shape) : Decidable shape.IsPossible :=
  inferInstanceAs (Decidable (_ ∧ _ ∧ _))

/-! ### Flows -/

/-- The node that handles errors. -/
def errorNode : Int := 99990

/-- The commands of the runtime that actions run. -/
def systemCommands : List String :=
  ["SetVar", "GetValue", "ValidateEmail", "SendEmail"]

/-- The custom scripts that actions run. -/
def customCommands : List String :=
  ["SendInvoice", "LookupOrder", "CreateTicket"]

/-- Adds so many flows to a plan, numbered from an index on. -/
def allocateFrom (plan : FlowPlan) (index : Nat) : Nat → Except FlowError FlowPlan
  | 0 => .ok plan
  | left + 1 =>
    match plan.allocate s!"flow_{index}" s!"Generated flow {index}" with
    | .error error => .error error
    | .ok plan => allocateFrom plan (index + 1) left

/-- The plan of a number of flows. -/
def allocate (flows : Nat) : Except FlowError FlowPlan :=
  allocateFrom {} 1 flows

/-- A decision that leads to a node, or is an end of the dialog. -/
def question (number : Int) (next : Option Int) : Node :=
  let node : Node := { number, kind := .decision, name := s!"Ask {number}" }
  let node := (node.withMessage s!"Question {number}, please answer").withNextNodes next.toList
  match next with
  | some _ => node
  | none => node.withCell .nodeTags "end"

/-- An action that runs a command and leads to the following number, or to the error handler. -/
def step (number : Int) (command : String) : Node :=
  let node : Node := { number, kind := .action, name := s!"Step {number}" }
  ((node.withCommand command).withRoute "success" (number + 1)).withRoute "error" errorNode

/-- An action that runs one of the commands. -/
def action (number : Int) : Draw Node := do
  let commands := if ← Draw.chance 25 then customCommands else systemCommands
  return step number (← Draw.oneOf commands)

/-- So many nodes from a number on. The last one is a decision that leads to the exit. -/
def chain (exit : Option Int) : Nat → Int → Draw (List Node)
  | 0, _ => return []
  | 1, number => return [question number exit]
  | left + 2, number => do
    let node ←
      if ← Draw.chance 30 then action number else pure (question number (some (number + 1)))
    let rest ← chain exit (left + 1) (number + 1)
    return node :: rest

/-- The nodes of flows. Each flow leads on to the next one. -/
def chains (shape : Shape) : List Flow → Draw (List (List Node))
  | [] => return []
  | flow :: rest => do
    let size ← Draw.among shape.minimum (shape.maximum - shape.minimum + 1)
    let nodes ← chain (rest.head?.map Flow.start) size flow.start
    let later ← chains shape rest
    return nodes :: later

/-- The node that a dialog starts with. -/
def welcome (first : Option Int) : Node :=
  let node : Node := { number := 1, kind := .decision, name := "Welcome" }
  (node.withMessage "Hi! How can I help you today?").withNextNodes first.toList

/-- The node that every action falls back to. -/
def errorHandler : Node :=
  let node : Node := { number := errorNode, kind := .action, name := "Error handler" }
  (node.withCommand "HandleBotError").withRoute "error" 1

/-! ### Defects -/

/-- What a defect does to a node. -/
inductive Defect
  /-- A next node that does not exist. -/
  | missingNode (target : Int)
  | noErrorRoute
  /-- Neither message nor rich content nor command. -/
  | noContent
  deriving DecidableEq, Repr

/-- Draws a defect for a node. Only actions lose a route. -/
def Defect.draw (node : Node) : Draw Defect := do
  let kind ← Draw.among 0 3
  if kind = 0 then
    let offset ← Draw.among 0 999
    return .missingNode (90000 + offset)
  else if kind = 1 ∧ node.kind = .action then return .noErrorRoute
  else return .noContent

/-- Spoils a node. -/
def Defect.apply : Defect → Node → Node
  | missingNode target, node => { node with nextNodes := node.nextNodes ++ [target] }
  | noErrorRoute, node => { node with routes := node.routes.filter (·.label ≠ "error") }
  | noContent, node =>
    { node with
      message := none
      richContent := none
      command := if node.kind = .action then none else node.command }

/-- What a defect did to the node with a number. -/
def Defect.text (number : Int) : Defect → String
  | missingNode target => s!"node {number} points to missing node {target}"
  | noErrorRoute => s!"node {number} lost its error route"
  | noContent => s!"node {number} lost its required content"

/-- A defect of the node with a number. -/
structure Spoiling where
  number : Int
  defect : Defect
  deriving DecidableEq, Repr

/-- What was spoiled, if anything. -/
def Spoiling.describe : Option Spoiling → String
  | some spoiling => spoiling.defect.text spoiling.number
  | none => "none (artifact too small)"

/-- Spoils one node, neither the first nor the last one if there are others. -/
def spoilOne (nodes : List Node) : Draw (List Node × Option Spoiling) := do
  let index ← Draw.among 1 (max (nodes.length - 1) 2 - 1)
  match nodes[index]? with
  | none => return (nodes, none)
  | some node =>
    let defect ← Defect.draw node
    return (nodes.set index (defect.apply node), some { number := node.number, defect })

/-- Spoils nodes one after another. The same node may be spoiled again. -/
def spoil : Nat → List Node → Draw (List Node × List (Option Spoiling))
  | 0, nodes => return (nodes, [])
  | defects + 1, nodes => do
    let (nodes, spoiling) ← spoilOne nodes
    let (nodes, spoilings) ← spoil defects nodes
    return (nodes, spoiling :: spoilings)

end Sample

/-! ### Samples -/

/-- A generated table with its plan. -/
structure Sample where
  plan : FlowPlan
  /-- The nodes of each flow, before any defect. -/
  parts : List (List Node)
  nodes : List Node
  /-- What the defects spoiled. -/
  defects : List (Option Sample.Spoiling)

namespace Sample

/-- Draws a sample for a plan. -/
def draw (shape : Shape) (plan : FlowPlan) : Draw Sample := do
  let parts ← chains shape plan.flows
  let sound := welcome (plan.flows.head?.map Flow.start) :: (parts.flatten ++ [errorHandler])
  let (nodes, defects) ← spoil shape.defects sound
  return { plan := plan, parts := parts, nodes := nodes, defects := defects }

/-- The table of a sample. -/
def table (sample : Sample) : Table :=
  .ofNodes sample.nodes

end Sample

end DialogTable
