import DialogTable.Flow.Plan
import DialogTable.Proofs.Search

/-!
# The owner of a number

In a well-formed plan the starts ascend, so that halving counts the flows that start at or below a
number. The flow that is found in this way is the one whose range holds the number
(`WellFormed.ownerIndex?_eq_some_iff`). System numbers and those before the first start have no
owner, and no others (`WellFormed.ownerIndex?_eq_none_iff`).
-/

namespace DialogTable.FlowPlan

/-- The starts ascend and can be assigned, and no two flows share a name. -/
structure WellFormed (plan : FlowPlan) : Prop where
  ascending : plan.flows.Pairwise fun a b => a.start < b.start
  assignable : ∀ flow ∈ plan.flows, IsAssignable flow.start
  distinct : (plan.flows.map Flow.name).Nodup

/-- The number of flows that start at or below a number. -/
def started (plan : FlowPlan) (number : Int) : Nat :=
  plan.flows.countP fun flow => flow.start ≤ number

theorem started_le_length (plan : FlowPlan) (number : Int) :
    plan.started number ≤ plan.flows.length :=
  List.countP_le_length

namespace WellFormed

variable {plan : FlowPlan} {number : Int} {index : Nat}

theorem partitioned (h : plan.WellFormed) (number : Int) :
    Partitioned (fun flow => decide (flow.start ≤ number)) plan.flows := by
  refine h.ascending.imp fun hlt hle => ?_
  rw [decide_eq_true_iff] at hle ⊢
  omega

theorem lt_started_iff (h : plan.WellFormed) :
    index < plan.started number ↔ ∃ flow, plan.flows[index]? = some flow ∧ flow.start ≤ number := by
  have hcount {flow : Flow} (hflow : plan.flows[index]? = some flow) :
      index < plan.started number ↔ flow.start ≤ number :=
    ((h.partitioned number).lt_countP_iff hflow).trans decide_eq_true_iff
  constructor
  · intro hlt
    have hflow := List.getElem?_eq_getElem (Nat.lt_of_lt_of_le hlt (plan.started_le_length number))
    exact ⟨_, hflow, (hcount hflow).1 hlt⟩
  · rintro ⟨flow, hflow, hle⟩
    exact (hcount hflow).2 hle

theorem ownerIndex?_eq (h : plan.WellFormed) (number : Int) :
    plan.ownerIndex? number =
      if IsSystemNumber number then none
      else match plan.started number with
        | 0 => none
        | n + 1 => some n := by
  rw [ownerIndex?, (h.partitioned number).partitionPoint_eq]
  rfl

theorem ownerIndex?_eq_some_iff_started (h : plan.WellFormed) :
    plan.ownerIndex? number = some index ↔
      ¬ IsSystemNumber number ∧ plan.started number = index + 1 := by
  rw [h.ownerIndex?_eq]
  split
  · next hsystem => exact ⟨nofun, fun hn => absurd hsystem hn.1⟩
  · next hsystem =>
    rw [and_iff_right hsystem]
    cases plan.started number with
    | zero => exact ⟨nofun, nofun⟩
    | succ n => rw [Option.some.injEq, Nat.add_right_cancel_iff]

/-- The owner of a number is the flow whose range holds it. -/
theorem ownerIndex?_eq_some_iff (h : plan.WellFormed) :
    plan.ownerIndex? number = some index ↔
      ∃ low high, plan.range? index = some (low, high) ∧ low ≤ number ∧ number < high := by
  have hcount : plan.started number = index + 1 ↔
      index < plan.started number ∧ ¬ index + 1 < plan.started number := by omega
  rw [h.ownerIndex?_eq_some_iff_started, hcount, h.lt_started_iff, h.lt_started_iff]
  constructor
  · rintro ⟨hsystem, ⟨flow, hflow, hle⟩, hnext⟩
    refine ⟨flow.start, _, by rw [range?, hflow, Option.map_some], hle, ?_⟩
    cases hfound : plan.flows[index + 1]? with
    | none => exact Int.not_le.1 fun hge => hsystem (.inr hge)
    | some next => exact Int.not_le.1 fun hge => hnext ⟨next, hfound, hge⟩
  · rintro ⟨low, high, hrange, hlow, hhigh⟩
    obtain ⟨flow, hflow, hends⟩ := Option.map_eq_some_iff.1 hrange
    injection hends with hfirst hlast
    subst hfirst hlast
    have hstart : 0 ≤ flow.start := (h.assignable flow (List.mem_of_getElem? hflow)).1
    cases hfound : plan.flows[index + 1]? with
    | none =>
      rw [hfound] at hhigh
      have hbelow : number < systemThreshold := hhigh
      refine ⟨?_, ⟨flow, hflow, hlow⟩, nofun⟩
      rintro (hneg | hge) <;> omega
    | some next =>
      rw [hfound] at hhigh
      have hbelow : number < next.start := hhigh
      have hnext : next.start < systemThreshold :=
        (h.assignable next (List.mem_of_getElem? hfound)).2
      refine ⟨?_, ⟨flow, hflow, hlow⟩, ?_⟩
      · rintro (hneg | hge) <;> omega
      · rintro ⟨other, hother, hle⟩
        rw [← Option.some.inj hother] at hle
        omega

/-- System numbers and those before the first start have no owner, and no others. -/
theorem ownerIndex?_eq_none_iff (h : plan.WellFormed) :
    plan.ownerIndex? number = none ↔
      IsSystemNumber number ∨ ∀ first, plan.flows.head? = some first → number < first.start := by
  have hzero : plan.started number = 0 ↔
      ∀ first, plan.flows.head? = some first → number < first.start := by
    rw [← Nat.le_zero, ← Nat.not_lt, h.lt_started_iff, List.head?_eq_getElem?, not_exists]
    exact forall_congr' fun first => by rw [not_and, Int.not_le]
  rw [← hzero, h.ownerIndex?_eq]
  split
  · next hsystem => exact iff_of_true rfl (.inl hsystem)
  · next hsystem =>
    rw [or_iff_right hsystem]
    cases plan.started number with
    | zero => exact iff_of_true rfl rfl
    | succ n => exact ⟨nofun, nofun⟩

/-- Only positions of flows are found. -/
theorem lt_length_of_ownerIndex? (h : plan.WellFormed)
    (ho : plan.ownerIndex? number = some index) : index < plan.flows.length := by
  have hstarted := (h.ownerIndex?_eq_some_iff_started.1 ho).2
  have hlength := plan.started_le_length number
  omega

end WellFormed

end DialogTable.FlowPlan
