import DialogTable.Proofs.Flow.Partition
import DialogTable.Proofs.Graph

/-!
# The graph of one flow

The nodes of a flow are those with a number in its range. Their graph is the graph of all nodes,
restricted to this range: edges that lead into the flow or out of it are left out, all others stay
as they are (`WellFormed.graph_of_bucket`).
-/

namespace DialogTable.FlowPlan

/-- A number lies between the ends of a range, the second left out. -/
def isWithin (low high number : Int) : Bool :=
  low ≤ number && number < high

/-- A flow owns the numbers in its range. -/
theorem WellFormed.ownerIndex?_eq_iff_isWithin {plan : FlowPlan} (h : plan.WellFormed)
    {index : Nat} {low high : Int} (hrange : plan.range? index = some (low, high)) (number : Int) :
    plan.ownerIndex? number = some index ↔ isWithin low high number = true := by
  rw [h.ownerIndex?_eq_some_iff, isWithin, Bool.and_eq_true, decide_eq_true_eq, decide_eq_true_eq]
  constructor
  · rintro ⟨first, last, hfound, hlow, hhigh⟩
    rw [hrange] at hfound
    cases hfound
    exact ⟨hlow, hhigh⟩
  · rintro ⟨hlow, hhigh⟩
    exact ⟨low, high, hrange, hlow, hhigh⟩

/-- **The graph of a flow is the full graph restricted to that flow.** For each flow of a plan, its
bucket holds the nodes with a number in its range, in their order. The edges of their graph are the
edges of the graph of all nodes with both ends in this range, with their labels and origins and in
their order. -/
theorem WellFormed.graph_of_bucket {plan : FlowPlan} (h : plan.WellFormed) (nodes : List Node)
    {index : Nat} (hindex : index < plan.flows.length) :
    ∃ low high bucket, plan.range? index = some (low, high) ∧
      (Partition.ofNodes nodes plan).buckets[index]? = some bucket ∧
      (Graph.ofNodes bucket.nodes).nodes = nodes.filter (isWithin low high ·.number) ∧
      (Graph.ofNodes bucket.nodes).edges = (Graph.ofNodes nodes).edges.filter fun edge =>
        isWithin low high edge.source && isWithin low high edge.target := by
  have hflow : plan.flows[index]? = some plan.flows[index] := List.getElem?_eq_getElem hindex
  obtain ⟨low, high, hrange⟩ : ∃ low high, plan.range? index = some (low, high) :=
    ⟨_, _, by rw [range?, hflow, Option.map_some]⟩
  have hnodes : nodes.filter (plan.ownerIndex? ·.number = some index) =
      nodes.filter (isWithin low high ·.number) := by
    refine List.filter_congr fun node _ => ?_
    rw [Bool.eq_iff_iff, decide_eq_true_eq, h.ownerIndex?_eq_iff_isWithin hrange]
  have hbucket := Partition.getElem?_buckets_ofNodes nodes plan index
  rw [hflow, Option.map_some, hnodes] at hbucket
  exact ⟨low, high, _, hrange, hbucket, rfl, Graph.edges_ofNodes_filter (isWithin low high) nodes⟩

/-- The first of two flows. One of its nodes leads on to the other flow and to a number that no node
has, another one back from there. -/
theorem graph_of_bucket_of_crossing :
    let plan : FlowPlan := { flows := [⟨"a", "", 100⟩, ⟨"b", "", 250⟩] }
    let nodes : List Node := [
      { number := 250, kind := .decision, name := "back", nextNodes := [101, 250] },
      { number := 100, kind := .decision, name := "on", nextNodes := [101, 250, 7] },
      { number := 101, kind := .action, name := "retry", routes := [⟨"error", 100⟩, ⟨"ok", 250⟩] },
      { number := 100, kind := .decision, name := "again", nextNodes := [100] }]
    plan.WellFormed ∧ 0 < plan.flows.length ∧
      ∃ low high bucket, plan.range? 0 = some (low, high) ∧
        (Partition.ofNodes nodes plan).buckets[0]? = some bucket ∧
        (Graph.ofNodes bucket.nodes).nodes = nodes.filter (isWithin low high ·.number) ∧
        (Graph.ofNodes bucket.nodes).edges = (Graph.ofNodes nodes).edges.filter fun edge =>
          isWithin low high edge.source && isWithin low high edge.target := by
  intro plan nodes
  have h : plan.WellFormed := ⟨by decide, by decide, by decide⟩
  exact ⟨h, by decide, h.graph_of_bucket nodes (by decide)⟩

end DialogTable.FlowPlan
