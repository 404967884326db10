import Mathlib.Data.List.Basic
import DialogTable.Flow.Partition
import DialogTable.Proofs.Flow.Ownership

/-!
# Every node in one place

Buckets stand in plan order, each with the nodes that its flow owns, and the nodes without an owner
are unassigned; all keep their order (`getElem?_buckets_ofNodes`, `unassigned_ofNodes`). No node is
lost and none is put in two places (`perm_everywhere_ofNodes`).
-/

namespace DialogTable

namespace Partition

/-- The nodes of all buckets, and those that are unassigned. -/
def everywhere (partition : Partition) : List Node :=
  partition.buckets.flatMap Bucket.nodes ++ partition.unassigned

/-! ### One more node -/

theorem perm_flatMap_addTo (node : Node) {index : Nat} {buckets : List Bucket}
    (h : index < buckets.length) :
    ((addTo node index buckets).flatMap Bucket.nodes).Perm
      (node :: buckets.flatMap Bucket.nodes) := by
  induction buckets generalizing index with
  | nil => exact absurd h (Nat.not_lt_zero _)
  | cons bucket rest ih =>
    cases index with
    | zero =>
      rw [addTo, List.modify_zero_cons, List.flatMap_cons, List.flatMap_cons, List.append_assoc]
      exact List.perm_middle
    | succ index =>
      have hrest := ih (Nat.lt_of_succ_lt_succ h)
      rw [addTo, List.modify_succ_cons, ← addTo, List.flatMap_cons, List.flatMap_cons]
      exact (hrest.append_left bucket.nodes).trans List.perm_middle

/-- A node is added in one place. -/
theorem perm_everywhere_add {plan : FlowPlan} {partition : Partition} {node : Node}
    (h : ∀ index, plan.ownerIndex? node.number = some index → index < partition.buckets.length) :
    (add plan partition node).everywhere.Perm (node :: partition.everywhere) := by
  rw [add]
  split
  · next index howner => exact (perm_flatMap_addTo node (h index howner)).append_right _
  · rw [everywhere, ← List.append_assoc]
    exact List.perm_append_singleton _ _

theorem length_buckets_add (plan : FlowPlan) (partition : Partition) (node : Node) :
    (add plan partition node).buckets.length = partition.buckets.length := by
  rw [add]
  split
  · exact List.length_modify ..
  · rfl

/-! ### All nodes -/

theorem perm_everywhere_foldl {plan : FlowPlan} (nodes : List Node) {partition : Partition}
    (h : ∀ number index, plan.ownerIndex? number = some index →
      index < partition.buckets.length) :
    (nodes.foldl (add plan) partition).everywhere.Perm (nodes ++ partition.everywhere) := by
  induction nodes generalizing partition with
  | nil => exact List.Perm.refl _
  | cons node rest ih =>
    have hadd := perm_everywhere_add (h node.number)
    rw [List.foldl_cons]
    refine (ih ?_).trans ((hadd.append_left rest).trans List.perm_middle)
    rw [length_buckets_add]
    exact h

/-- A node comes in behind the others of its bucket. -/
theorem getElem?_buckets_add (plan : FlowPlan) (partition : Partition) (node : Node)
    (index : Nat) :
    (add plan partition node).buckets[index]? =
      partition.buckets[index]?.map fun bucket =>
        { bucket with nodes :=
            bucket.nodes ++ [node].filter (plan.ownerIndex? ·.number = some index) } := by
  rw [add]
  split
  · next owner howner =>
    rw [addTo, List.getElem?_modify]
    by_cases heq : owner = index
    · simp [howner, heq]
    · simp [howner, heq]
  · next howner => simp [howner]

theorem unassigned_add (plan : FlowPlan) (partition : Partition) (node : Node) :
    (add plan partition node).unassigned =
      partition.unassigned ++ [node].filter (plan.ownerIndex? ·.number = none) := by
  rw [add]
  split
  · next howner => simp [howner]
  · next howner => simp [howner]

theorem getElem?_buckets_foldl (plan : FlowPlan) (nodes : List Node) (partition : Partition)
    (index : Nat) :
    (nodes.foldl (add plan) partition).buckets[index]? =
      partition.buckets[index]?.map fun bucket =>
        { bucket with nodes :=
            bucket.nodes ++ nodes.filter (plan.ownerIndex? ·.number = some index) } := by
  induction nodes generalizing partition with
  | nil => simp
  | cons node rest ih =>
    rw [List.foldl_cons, ih, getElem?_buckets_add, Option.map_map]
    simp only [Function.comp_def, List.append_assoc, ← List.filter_append, List.singleton_append]

theorem unassigned_foldl (plan : FlowPlan) (nodes : List Node) (partition : Partition) :
    (nodes.foldl (add plan) partition).unassigned =
      partition.unassigned ++ nodes.filter (plan.ownerIndex? ·.number = none) := by
  induction nodes generalizing partition with
  | nil => simp
  | cons node rest ih =>
    rw [List.foldl_cons, ih, unassigned_add, List.append_assoc, ← List.filter_append,
      List.singleton_append]

/-! ### The partition -/

/-- A bucket without nodes for each flow. -/
def blank (plan : FlowPlan) : Partition where
  buckets := plan.flows.map fun flow => { flow, nodes := [] }
  unassigned := []

theorem everywhere_blank (plan : FlowPlan) : (blank plan).everywhere = [] := by
  simp [everywhere, blank]

section OfNodes

variable (nodes : List Node) (plan : FlowPlan)

/-- Each bucket belongs to the flow at its position and holds the nodes that the flow owns. -/
theorem getElem?_buckets_ofNodes (index : Nat) :
    (ofNodes nodes plan).buckets[index]? =
      plan.flows[index]?.map fun flow =>
        { flow, nodes := nodes.filter (plan.ownerIndex? ·.number = some index) } := by
  rw [ofNodes, ← blank, getElem?_buckets_foldl, blank, List.getElem?_map, Option.map_map]
  rfl

theorem unassigned_ofNodes :
    (ofNodes nodes plan).unassigned = nodes.filter (plan.ownerIndex? ·.number = none) :=
  unassigned_foldl plan nodes _

variable {plan}

theorem perm_everywhere_ofNodes (h : plan.WellFormed) :
    (ofNodes nodes plan).everywhere.Perm nodes := by
  have hindex (number : Int) (index : Nat) (howner : plan.ownerIndex? number = some index) :
      index < (blank plan).buckets.length := by
    rw [blank, List.length_map]
    exact h.lt_length_of_ownerIndex? howner
  have hfold := perm_everywhere_foldl nodes hindex
  rwa [everywhere_blank, List.append_nil] at hfold

end OfNodes

end Partition

/-- **A partition is complete, disjoint and stable.** A flow owns exactly the numbers in its range.
Negative numbers, system numbers and those before the first start have no owner, and no others; in
a plan without flows there is no first start, and no number has an owner. The buckets stand for the
flows of the plan, in its order. Each node is put once, into the bucket of the flow that owns it or
to the unassigned ones, and in each place the nodes keep their order. -/
theorem FlowPlan.WellFormed.owners_and_buckets {plan : FlowPlan} (h : plan.WellFormed) :
    (∀ number index, plan.ownerIndex? number = some index ↔
      ∃ low high, plan.range? index = some (low, high) ∧ low ≤ number ∧ number < high) ∧
    (∀ number, plan.ownerIndex? number = none ↔
      number < 0 ∨ systemThreshold ≤ number ∨
        ∀ first, plan.flows.head? = some first → number < first.start) ∧
    ∀ nodes, let partition := Partition.ofNodes nodes plan
      partition.buckets.map Bucket.flow = plan.flows ∧
      (∀ index bucket, partition.buckets[index]? = some bucket →
        bucket.nodes = nodes.filter (plan.ownerIndex? ·.number = some index)) ∧
      partition.unassigned = nodes.filter (plan.ownerIndex? ·.number = none) ∧
      (partition.buckets.flatMap Bucket.nodes ++ partition.unassigned).Perm nodes := by
  refine ⟨fun _ _ => h.ownerIndex?_eq_some_iff, fun number => ?_, fun nodes => ?_⟩
  · rw [h.ownerIndex?_eq_none_iff, IsSystemNumber, or_assoc]
  · intro partition
    have hbuckets := Partition.getElem?_buckets_ofNodes nodes plan
    refine ⟨?_, ?_, Partition.unassigned_ofNodes nodes plan,
      Partition.perm_everywhere_ofNodes nodes h⟩
    · apply List.ext_getElem?
      intro index
      rw [List.getElem?_map, hbuckets, Option.map_map]
      exact Option.map_id'
    · intro index bucket hbucket
      rw [hbuckets] at hbucket
      obtain ⟨flow, -, rfl⟩ := Option.map_eq_some_iff.1 hbucket
      rfl

/-- Two flows of uneven size, with a node before the first, one at each end of the ranges, a number
that occurs twice, a negative one and an error handler. -/
theorem FlowPlan.owners_and_buckets_of_two_flows :
    let plan : FlowPlan := { flows := [⟨"a", "", 100⟩, ⟨"b", "", 250⟩] }
    let nodes := [250, 1, 100, 99990, 249, 100, -5, 99989].map fun number : Int =>
      ({ number, kind := .decision, name := "n" } : Node)
    plan.WellFormed ∧
      let partition := Partition.ofNodes nodes plan
      partition.buckets.map Bucket.flow = plan.flows ∧
      (∀ index bucket, partition.buckets[index]? = some bucket →
        bucket.nodes = nodes.filter (plan.ownerIndex? ·.number = some index)) ∧
      partition.unassigned = nodes.filter (plan.ownerIndex? ·.number = none) ∧
      (partition.buckets.flatMap Bucket.nodes ++ partition.unassigned).Perm nodes := by
  intro plan nodes
  have h : plan.WellFormed := ⟨by decide, by decide, by decide⟩
  exact ⟨h, h.owners_and_buckets.2.2 nodes⟩

end DialogTable
