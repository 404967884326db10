import DialogTable.Flow.Plan
import DialogTable.Text.Line

/-!
# Nodes by flow

A partition puts each node into the bucket of the flow that owns its number. Nodes without an owner
stay unassigned. Buckets stand in plan order and keep the order of the nodes.
-/

namespace DialogTable

/-- The nodes of one flow. -/
structure Bucket where
  flow : Flow
  nodes : List Node
  deriving Repr

/-- Nodes by flow. -/
structure Partition where
  buckets : List Bucket
  unassigned : List Node
  deriving Repr

namespace Partition

/-- Adds a node at the end of the bucket at a position. -/
def addTo (node : Node) (index : Nat) (buckets : List Bucket) : List Bucket :=
  buckets.modify index fun bucket => { bucket with nodes := bucket.nodes ++ [node] }

/-- Assigns one node. -/
def add (plan : FlowPlan) (partition : Partition) (node : Node) : Partition :=
  match plan.ownerIndex? node.number with
  | some index => { partition with buckets := addTo node index partition.buckets }
  | none => { partition with unassigned := partition.unassigned ++ [node] }

/-- Assigns nodes to the flows of a plan. -/
def ofNodes (nodes : List Node) (plan : FlowPlan) : Partition :=
  nodes.foldl (add plan)
    { buckets := plan.flows.map fun flow => { flow, nodes := [] }, unassigned := [] }

/-- The bucket of a flow. -/
def bucket? (partition : Partition) (name : String) : Option Bucket :=
  partition.buckets.find? (·.flow.name = name)

/-- The nodes of a flow; none if the flow is unknown. -/
def nodesOf (partition : Partition) (name : String) : List Node :=
  ((partition.bucket? name).map Bucket.nodes).getD []

/-- Numbers between commas. -/
def numberList (nodes : List Node) : String :=
  Text.join ", " (nodes.map fun node => toString node.number)

/-- How many nodes there are, and which. -/
def tally (nodes : List Node) : String :=
  s!"{nodes.length} node(s) [{numberList nodes}]"

/-- One line a bucket and one for the unassigned nodes. -/
def listing (partition : Partition) : String :=
  Text.closeLines (
    partition.buckets.map (fun bucket =>
      s!"{bucket.flow.name} (from {bucket.flow.start}): {tally bucket.nodes}")
    ++ [s!"unassigned: {tally partition.unassigned}"])

end Partition

end DialogTable
