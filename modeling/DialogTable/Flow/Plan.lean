import DialogTable.Flow
import DialogTable.Search

/-!
# Flow plans

A plan holds flows in ascending order of start. Starts lie below the system threshold, no two flows
share a start and no two share a name, so each number has at most one owner. The last flow owns the
numbers up to the system threshold; numbers before the first start and system numbers have no owner.

`ofFlows` sorts and checks a list of flows. `addFlow` adds a flow at the start of the next free
block. The owner of a number is found by halving.
-/

namespace DialogTable

/-- Flows in ascending order of start. -/
structure FlowPlan where
  flows : List Flow := []
  deriving DecidableEq, Repr, Inhabited

namespace FlowPlan

/-- Flows are allocated in blocks of this many numbers. -/
def blockSize : Int := 100

/-- The numbers that a flow may start at. -/
def IsAssignable (start : Int) : Prop :=
  0 ≤ start ∧ start < systemThreshold

instance (start : Int) : Decidable (IsAssignable start) :=
  inferInstanceAs (Decidable (_ ∧ _))

/-- The first flow with a start that is not assignable, or with a name that was used before. -/
def firstMisfit (used : List String) : List Flow → Option FlowError
  | [] => none
  | flow :: rest =>
    if ¬ IsAssignable flow.start then some (.startOutOfRange flow.name flow.start)
    else if flow.name ∈ used then some (.duplicateName flow.name)
    else firstMisfit (flow.name :: used) rest

/-- The first two neighbours with the same start. -/
def firstOverlap : List Flow → Option FlowError
  | a :: b :: rest =>
    if a.start = b.start then some (.overlappingStart a.name b.name a.start)
    else firstOverlap (b :: rest)
  | _ => none

/-- The flows in ascending order of start; flows with one start keep their order. -/
def sort (flows : List Flow) : List Flow :=
  flows.mergeSort fun a b => a.start ≤ b.start

/-- The plan of flows given in any order. Starts and names are checked before overlaps. -/
def ofFlows (flows : List Flow) : Except FlowError FlowPlan :=
  let sorted := sort flows
  match (firstMisfit [] sorted).or (firstOverlap sorted) with
  | some error => .error error
  | none => .ok { flows := sorted }

/-- The start of the block behind the last flow. -/
def nextStart (plan : FlowPlan) : Int :=
  match plan.flows.getLast? with
  | none => blockSize
  | some last => (last.start / blockSize + 1) * blockSize

/-- Adds a flow at the next free block. The first result is the flow, or why there is none; the
second is the plan as it is afterwards. -/
def addFlow (plan : FlowPlan) (name description : String) : Except FlowError Flow × FlowPlan :=
  if name ∈ plan.flows.map (·.name) then (.error (.duplicateName name), plan)
  else if systemThreshold ≤ plan.nextStart then (.error .rangeExhausted, plan)
  else
    let flow : Flow := { name, description, start := plan.nextStart }
    (.ok flow, { flows := plan.flows ++ [flow] })

/-- The plan with one more flow, for those who have no use for a plan without it. -/
def allocate (plan : FlowPlan) (name description : String) : Except FlowError FlowPlan :=
  let (added, after) := plan.addFlow name description
  added.map fun _ => after

/-- The flow with a name. -/
def find? (plan : FlowPlan) (name : String) : Option Flow :=
  plan.flows.find? (·.name = name)

/-- The numbers that the flow at a position owns: from the first on, the second left out. -/
def range? (plan : FlowPlan) (index : Nat) : Option (Int × Int) :=
  plan.flows[index]?.map fun flow =>
    (flow.start, ((plan.flows[index + 1]?).map Flow.start).getD systemThreshold)

/-- The position of the flow that owns a number: the last one that starts at or below it. -/
def ownerIndex? (plan : FlowPlan) (number : Int) : Option Nat :=
  if IsSystemNumber number then none
  else
    match partitionPoint (fun flow => flow.start ≤ number) plan.flows with
    | 0 => none
    | n + 1 => some n

/-- The flow that owns a number. -/
def owner? (plan : FlowPlan) (number : Int) : Option Flow :=
  (plan.ownerIndex? number).bind fun index => plan.flows[index]?

end FlowPlan

end DialogTable
