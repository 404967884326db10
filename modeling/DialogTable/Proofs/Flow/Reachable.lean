import Mathlib.Data.List.Basic
import DialogTable.Proofs.Flow.Acceptance
import DialogTable.Proofs.Flow.Ownership

/-!
# Plans that a program can reach

A program makes a plan of a list of flows, or begins with the empty plan, and then adds flows one at
a time, with success or without. `Reachable` collects the plans that come about in this way. They
are well formed (`Reachable.wellFormed`), because a new flow starts behind the last one
(`WellFormed.start_lt_nextStart`), which is the greatest of all. So it takes no number away from
another flow before its own start (`Extends`).
-/

namespace DialogTable.FlowPlan

/-! ### Plans of a list -/

theorem wellFormed_of_ofFlows {flows : List Flow} {plan : FlowPlan}
    (h : ofFlows flows = .ok plan) : plan.WellFormed := by
  obtain ⟨hflows, rfl⟩ := ofFlows_eq_ok_iff.1 h
  have hsorted := (unambiguous_congr (perm_sort flows)).2 hflows
  exact ⟨pairwise_lt_sort_iff.2 hflows.starts, hsorted.assignable, hsorted.names⟩

/-! ### One more flow -/

/-- What adding a flow comes to. -/
inductive Adding (plan : FlowPlan) (name description : String) :
    Except FlowError Flow × FlowPlan → Prop
  | taken (h : name ∈ plan.flows.map Flow.name) :
    Adding plan name description (.error (.duplicateName name), plan)
  | exhausted (hname : name ∉ plan.flows.map Flow.name) (h : systemThreshold ≤ plan.nextStart) :
    Adding plan name description (.error .rangeExhausted, plan)
  | added (hname : name ∉ plan.flows.map Flow.name) (h : plan.nextStart < systemThreshold) :
    Adding plan name description
      (.ok { name, description, start := plan.nextStart },
        { flows := plan.flows ++ [{ name, description, start := plan.nextStart }] })

theorem adding_addFlow (plan : FlowPlan) (name description : String) :
    plan.Adding name description (plan.addFlow name description) := by
  rw [addFlow]
  split
  · next h => exact .taken h
  · next hname =>
    split
    · next h => exact .exhausted hname h
    · next h => exact .added hname (Int.not_le.1 h)

/-- What one more flow changes: it stands behind all others, at the start of a block that no other
flow starts in, and the numbers before it keep their owners. -/
structure Extends (plan : FlowPlan) (flow : Flow) (after : FlowPlan) : Prop where
  flows : after.flows = plan.flows ++ [flow]
  block : blockSize ∣ flow.start
  behind : ∀ earlier ∈ plan.flows, earlier.start < flow.start
  alone : ∀ earlier ∈ plan.flows, earlier.start / blockSize ≠ flow.start / blockSize
  kept : ∀ number < flow.start, after.ownerIndex? number = plan.ownerIndex? number ∧
    after.owner? number = plan.owner? number

theorem dvd_nextStart (plan : FlowPlan) : blockSize ∣ plan.nextStart := by
  rw [nextStart]
  split
  · exact Int.dvd_refl _
  · exact Int.dvd_mul_left _ _

namespace WellFormed

variable {plan : FlowPlan}

/-- The last flow starts behind all others, so that its block is the last one in use. -/
theorem block_lt_nextStart (h : plan.WellFormed) {flow : Flow} (hflow : flow ∈ plan.flows) :
    flow.start / blockSize < plan.nextStart / blockSize := by
  rw [nextStart]
  split
  · next hlast =>
    rw [List.getLast?_eq_none_iff.1 hlast] at hflow
    exact absurd hflow List.not_mem_nil
  · next last hlast =>
    obtain ⟨front, hfront⟩ := List.getLast?_eq_some_iff.1 hlast
    have hle : flow.start ≤ last.start := by
      have hascending := h.ascending
      rw [hfront] at hascending hflow
      rcases List.mem_append.1 hflow with hmem | hmem
      · have hlt := (List.pairwise_append.1 hascending).2.2 flow hmem last List.mem_cons_self
        exact Int.le_of_lt hlt
      · exact Int.le_of_eq (congrArg Flow.start (List.mem_singleton.1 hmem))
    simp only [blockSize]
    omega

theorem start_lt_nextStart (h : plan.WellFormed) {flow : Flow} (hflow : flow ∈ plan.flows) :
    flow.start < plan.nextStart := by
  have hblock := h.block_lt_nextStart hflow
  simp only [blockSize] at hblock
  omega

theorem nextStart_nonneg (h : plan.WellFormed) : 0 ≤ plan.nextStart := by
  cases hflows : plan.flows with
  | nil => simp [nextStart, hflows, blockSize]
  | cons flow rest =>
    have hmem : flow ∈ plan.flows := hflows ▸ List.mem_cons_self
    have hlt := h.start_lt_nextStart hmem
    have hstart := (h.assignable flow hmem).1
    omega

/-- A flow that is added leaves the plan well formed. -/
theorem append (h : plan.WellFormed) {flow : Flow} (hname : flow.name ∉ plan.flows.map Flow.name)
    (hstart : flow.start = plan.nextStart) (hlt : plan.nextStart < systemThreshold) :
    WellFormed { flows := plan.flows ++ [flow] } := by
  refine ⟨?_, ?_, ?_⟩
  · refine List.pairwise_append.2 ⟨h.ascending, List.pairwise_singleton .., ?_⟩
    intro earlier hearlier other hother
    rw [List.mem_singleton.1 hother, hstart]
    exact h.start_lt_nextStart hearlier
  · intro other hother
    rcases List.mem_append.1 hother with hother | hother
    · exact h.assignable other hother
    · rw [List.mem_singleton.1 hother, hstart]
      exact ⟨h.nextStart_nonneg, hlt⟩
  · rw [List.map_append, List.map_singleton]
    refine List.nodup_append.2 ⟨h.distinct, List.pairwise_singleton .., ?_⟩
    intro name hmem other hother heq
    rw [heq, List.mem_singleton.1 hother] at hmem
    exact hname hmem

/-- Adding a flow, with success or without, leaves the plan well formed. -/
theorem addFlow (h : plan.WellFormed) (name description : String) :
    (plan.addFlow name description).2.WellFormed := by
  have hadding := plan.adding_addFlow name description
  generalize plan.addFlow name description = result at hadding ⊢
  cases hadding with
  | taken _ => exact h
  | exhausted _ _ => exact h
  | added hname hlt => exact h.append hname rfl hlt

/-- Numbers before the start of an added flow keep their owners. -/
theorem ownerIndex?_append (h : plan.WellFormed) {flow : Flow} {after : FlowPlan}
    (hafter : after.WellFormed) (hflows : after.flows = plan.flows ++ [flow]) {number : Int}
    (hlt : number < flow.start) : after.ownerIndex? number = plan.ownerIndex? number := by
  have hstarted : after.started number = plan.started number := by
    rw [started, hflows, List.countP_append, List.countP_singleton, if_neg (by simpa using hlt)]
    rfl
  rw [hafter.ownerIndex?_eq, h.ownerIndex?_eq, hstarted]

theorem owner?_append (h : plan.WellFormed) {flow : Flow} {after : FlowPlan}
    (hafter : after.WellFormed) (hflows : after.flows = plan.flows ++ [flow]) {number : Int}
    (hlt : number < flow.start) : after.owner? number = plan.owner? number := by
  rw [owner?, owner?, h.ownerIndex?_append hafter hflows hlt, hflows]
  cases howner : plan.ownerIndex? number with
  | none => rfl
  | some index => exact List.getElem?_append_left (h.lt_length_of_ownerIndex? howner)

end WellFormed

/-! ### Histories -/

/-- The plans that a program can reach. Flows are added with success or without. -/
inductive Reachable : FlowPlan → Prop
  | empty : Reachable {}
  | ofFlows {flows : List Flow} {plan : FlowPlan} (h : ofFlows flows = .ok plan) : Reachable plan
  | addFlow {plan : FlowPlan} (h : Reachable plan) (name description : String) :
    Reachable (plan.addFlow name description).2

theorem Reachable.wellFormed {plan : FlowPlan} (h : plan.Reachable) : plan.WellFormed := by
  induction h with
  | empty => exact ⟨List.Pairwise.nil, nofun, List.nodup_nil⟩
  | ofFlows h => exact wellFormed_of_ofFlows h
  | addFlow _ name description ih => exact ih.addFlow name description

/-- **Every plan that a program can reach is well formed.** Adding a flow fails exactly if its name
is in use or no block is left, and the plan is the same as before then. Otherwise the plan is
extended by one flow of this name and description. -/
theorem Reachable.wellFormed_and_extends {plan : FlowPlan} (h : plan.Reachable) :
    plan.WellFormed ∧ ∀ name description,
      let result := plan.addFlow name description
      ((∃ error, result.1 = .error error) ↔
        name ∈ plan.flows.map Flow.name ∨ systemThreshold ≤ plan.nextStart) ∧
      (∀ error, result.1 = .error error → result.2 = plan) ∧
      ∀ flow, result.1 = .ok flow →
        flow.name = name ∧ flow.description = description ∧ plan.Extends flow result.2 := by
  refine ⟨h.wellFormed, fun name description => ?_⟩
  have hafter := h.wellFormed.addFlow name description
  have hadding := plan.adding_addFlow name description
  generalize plan.addFlow name description = result at hadding hafter
  dsimp only
  cases hadding with
  | taken hname =>
    exact ⟨⟨fun _ => .inl hname, fun _ => ⟨_, rfl⟩⟩, fun _ _ => rfl, nofun⟩
  | exhausted hname hfull =>
    exact ⟨⟨fun _ => .inr hfull, fun _ => ⟨_, rfl⟩⟩, fun _ _ => rfl, nofun⟩
  | added hname hlt =>
    refine ⟨⟨nofun, ?_⟩, nofun, fun flow hflow => ?_⟩
    · rintro (hmem | hfull)
      · exact absurd hmem hname
      · exact absurd hlt (Int.not_lt.2 hfull)
    · cases hflow
      refine ⟨rfl, rfl, ⟨rfl, plan.dvd_nextStart, fun _ => h.wellFormed.start_lt_nextStart,
        fun _ hearlier => Int.ne_of_lt (h.wellFormed.block_lt_nextStart hearlier), ?_⟩⟩
      exact fun number hnumber => ⟨h.wellFormed.ownerIndex?_append hafter rfl hnumber,
        h.wellFormed.owner?_append hafter rfl hnumber⟩

/-- Two flows that start anywhere, then a name that is in use, then a third flow. -/
theorem wellFormed_and_extends_of_uneven :
    let first : FlowPlan := { flows := [⟨"a", "", 7⟩, ⟨"b", "", 149⟩] }
    let plan := ((first.addFlow "a" "again").2.addFlow "c" "third").2
    plan.Reachable ∧ plan.flows = [⟨"a", "", 7⟩, ⟨"b", "", 149⟩, ⟨"c", "third", 200⟩] ∧
      plan.WellFormed ∧ ∀ name description,
        let result := plan.addFlow name description
        ((∃ error, result.1 = .error error) ↔
          name ∈ plan.flows.map Flow.name ∨ systemThreshold ≤ plan.nextStart) ∧
        (∀ error, result.1 = .error error → result.2 = plan) ∧
        ∀ flow, result.1 = .ok flow →
          flow.name = name ∧ flow.description = description ∧ plan.Extends flow result.2 := by
  intro first plan
  have hsort : sort [⟨"b", "", 149⟩, ⟨"a", "", 7⟩] = first.flows := by
    simp [sort, List.mergeSort, first]
  have hfirst : ofFlows [⟨"b", "", 149⟩, ⟨"a", "", 7⟩] = .ok first := by
    rw [ofFlows, hsort]
    rfl
  have h : plan.Reachable := ((Reachable.ofFlows hfirst).addFlow "a" "again").addFlow "c" "third"
  exact ⟨h, by decide +kernel, h.wellFormed_and_extends⟩

end DialogTable.FlowPlan
