import Mathlib.Data.List.Nodup
import DialogTable.Flow.Plan

/-!
# Lists of flows that make a plan

A list of flows makes a plan exactly if it is unambiguous: every start can be assigned, and no two
flows share a name or a start. Sorting brings flows with one start together, so that comparing
neighbours finds them (`firstOverlap_sort_eq_none_iff`). Flows with different starts can be sorted
in one way only, so it does not matter in which order they are given (`sort_eq_of_perm`). Both are
put together in `ofFlows_accepts`.
-/

namespace DialogTable.FlowPlan

/-- Flows that can stand in one plan. -/
structure Unambiguous (flows : List Flow) : Prop where
  assignable : ∀ flow ∈ flows, IsAssignable flow.start
  names : (flows.map Flow.name).Nodup
  starts : (flows.map Flow.start).Nodup

theorem unambiguous_iff {flows : List Flow} :
    Unambiguous flows ↔ (∀ flow ∈ flows, IsAssignable flow.start) ∧
      (flows.map Flow.name).Nodup ∧ (flows.map Flow.start).Nodup :=
  ⟨fun h => ⟨h.assignable, h.names, h.starts⟩, fun h => ⟨h.1, h.2.1, h.2.2⟩⟩

instance (flows : List Flow) : Decidable (Unambiguous flows) :=
  decidable_of_iff _ unambiguous_iff.symm

/-- Being unambiguous is a matter of which flows there are, and not of their order. -/
theorem unambiguous_congr {flows other : List Flow} (h : flows.Perm other) :
    Unambiguous flows ↔ Unambiguous other := by
  rw [unambiguous_iff, unambiguous_iff, (h.map Flow.name).nodup_iff, (h.map Flow.start).nodup_iff]
  exact and_congr_left fun _ => forall_congr' fun flow => imp_congr_left h.mem_iff

/-! ### The two checks -/

theorem firstMisfit_eq_none_iff {used : List String} {flows : List Flow} :
    firstMisfit used flows = none ↔
      (∀ flow ∈ flows, IsAssignable flow.start ∧ flow.name ∉ used) ∧
        (flows.map Flow.name).Nodup := by
  induction flows generalizing used with
  | nil => simp [firstMisfit]
  | cons flow rest ih =>
    rw [firstMisfit]
    split
    · next hstart => exact ⟨nofun, fun h => absurd (h.1 flow List.mem_cons_self).1 hstart⟩
    · next hstart =>
      split
      · next hused => exact ⟨nofun, fun h => absurd hused (h.1 flow List.mem_cons_self).2⟩
      · next hused =>
        rw [ih, List.map_cons, List.nodup_cons, List.forall_mem_cons, List.mem_map]
        simp only [List.mem_cons, not_or, not_not] at hstart ⊢
        grind

theorem firstOverlap_eq_none_iff {flows : List Flow}
    (h : flows.Pairwise fun a b => a.start ≤ b.start) :
    firstOverlap flows = none ↔ flows.Pairwise fun a b => a.start < b.start := by
  fun_induction firstOverlap flows with
  | case1 a b rest heq =>
    refine ⟨nofun, fun hlt => ?_⟩
    have hab := List.rel_of_pairwise_cons hlt List.mem_cons_self
    omega
  | case2 a b rest hne ih =>
    have hle : a.start ≤ b.start := List.rel_of_pairwise_cons h List.mem_cons_self
    rw [ih h.of_cons, List.pairwise_cons (a := a)]
    refine ⟨fun hlt => ⟨fun other hother => ?_, hlt⟩, And.right⟩
    rcases List.mem_cons.1 hother with rfl | hother
    · omega
    · have hb : b.start < other.start := List.rel_of_pairwise_cons hlt hother
      omega
  | case3 flows hshort =>
    refine iff_of_true rfl ?_
    match flows with
    | [] => exact List.Pairwise.nil
    | [a] => exact List.pairwise_singleton ..
    | a :: b :: rest => exact absurd rfl (hshort a b rest)

/-! ### Sorted flows -/

theorem pairwise_sort (flows : List Flow) :
    (sort flows).Pairwise fun a b => a.start ≤ b.start := by
  have htrans (a b c : Flow) : decide (a.start ≤ b.start) = true →
      decide (b.start ≤ c.start) = true → decide (a.start ≤ c.start) = true := by
    simp only [decide_eq_true_eq]
    exact Int.le_trans
  have htotal (a b : Flow) : (decide (a.start ≤ b.start) || decide (b.start ≤ a.start)) = true := by
    simp only [Bool.or_eq_true, decide_eq_true_eq]
    exact Int.le_total a.start b.start
  exact (List.pairwise_mergeSort htrans htotal flows).imp of_decide_eq_true

theorem perm_sort (flows : List Flow) : (sort flows).Perm flows :=
  List.mergeSort_perm flows _

section Sorted

variable {flows other : List Flow}

/-- Sorted flows ascend strictly exactly if no two of them share a start. -/
theorem pairwise_lt_sort_iff :
    ((sort flows).Pairwise fun a b => a.start < b.start) ↔ (flows.map Flow.start).Nodup := by
  rw [← ((perm_sort flows).map Flow.start).nodup_iff, List.Nodup, List.pairwise_map]
  constructor
  · exact List.Pairwise.imp Int.ne_of_lt
  · intro hne
    exact (pairwise_sort flows).imp₂ (fun a b hle hne => by omega) hne

theorem firstOverlap_sort_eq_none_iff :
    firstOverlap (sort flows) = none ↔ (flows.map Flow.start).Nodup :=
  (firstOverlap_eq_none_iff (pairwise_sort flows)).trans pairwise_lt_sort_iff

theorem firstMisfit_sort_eq_none_iff :
    firstMisfit [] (sort flows) = none ↔
      (∀ flow ∈ flows, IsAssignable flow.start) ∧ (flows.map Flow.name).Nodup := by
  have hp := perm_sort flows
  rw [firstMisfit_eq_none_iff, (hp.map Flow.name).nodup_iff]
  apply and_congr_left
  intro _
  apply forall_congr'
  intro flow
  rw [hp.mem_iff]
  simp

/-- Flows with different starts are sorted in one way only. -/
theorem sort_eq_of_perm (h : flows.Perm other) (hstarts : (flows.map Flow.start).Nodup) :
    sort flows = sort other := by
  have hsorted : (sort flows).Perm (sort other) :=
    ((perm_sort flows).trans h).trans (perm_sort other).symm
  refine hsorted.eq_of_pairwise (fun a b _ _ hab hba => ?_) (pairwise_lt_sort_iff.2 hstarts)
    (pairwise_lt_sort_iff.2 (((h.map Flow.start).nodup_iff).1 hstarts))
  exact absurd hab (Int.lt_asymm hba)

/-! ### Plans of unambiguous lists -/

theorem ofFlows_eq_ok_iff {plan : FlowPlan} :
    ofFlows flows = .ok plan ↔ Unambiguous flows ∧ plan = { flows := sort flows } := by
  have hchecks : (firstMisfit [] (sort flows)).or (firstOverlap (sort flows)) = none ↔
      Unambiguous flows := by
    rw [Option.or_eq_none_iff, firstMisfit_sort_eq_none_iff, firstOverlap_sort_eq_none_iff,
      unambiguous_iff, and_assoc]
  rw [ofFlows]
  split
  · next error herror =>
    rw [herror] at hchecks
    exact ⟨nofun, fun h => nomatch hchecks.2 h.1⟩
  · next hnone =>
    rw [Except.ok.injEq, eq_comm]
    exact ⟨fun h => ⟨hchecks.1 hnone, h⟩, And.right⟩

theorem toOption_ofFlows (flows : List Flow) :
    (ofFlows flows).toOption = if Unambiguous flows then some { flows := sort flows } else none := by
  split
  · next h =>
    rw [ofFlows_eq_ok_iff.2 ⟨h, rfl⟩]
    rfl
  · next h =>
    cases hplan : ofFlows flows with
    | error error => rfl
    | ok plan => exact absurd (ofFlows_eq_ok_iff.1 hplan).1 h

end Sorted

/-- **A plan is made of the unambiguous lists and of no others, in whatever order they are.** Its
flows are the given ones in ascending order of start. Lists of the same flows all make the same plan
or all make none. -/
theorem ofFlows_accepts (flows : List Flow) :
    ((∃ plan, ofFlows flows = .ok plan) ↔ Unambiguous flows) ∧
      (∀ plan, ofFlows flows = .ok plan →
        plan.flows.Perm flows ∧ plan.flows.Pairwise fun a b => a.start < b.start) ∧
      ∀ other, flows.Perm other → (ofFlows other).toOption = (ofFlows flows).toOption := by
  refine ⟨⟨?_, ?_⟩, ?_, ?_⟩
  · rintro ⟨plan, hplan⟩
    exact (ofFlows_eq_ok_iff.1 hplan).1
  · intro h
    exact ⟨_, ofFlows_eq_ok_iff.2 ⟨h, rfl⟩⟩
  · intro plan hplan
    obtain ⟨h, rfl⟩ := ofFlows_eq_ok_iff.1 hplan
    exact ⟨perm_sort flows, pairwise_lt_sort_iff.2 h.starts⟩
  · intro other hperm
    rw [toOption_ofFlows, toOption_ofFlows]
    by_cases h : Unambiguous flows
    · rw [if_pos h, if_pos ((unambiguous_congr hperm).1 h), sort_eq_of_perm hperm h.starts]
    · rw [if_neg h, if_neg fun hother => h ((unambiguous_congr hperm).2 hother)]

/-- The bounds of the assignable numbers, and two flows at one start. -/
example : Unambiguous [⟨"b", "", 99989⟩, ⟨"a", "", 0⟩] ∧ ¬ Unambiguous [⟨"a", "", 99990⟩] ∧
    ¬ Unambiguous [⟨"a", "", 7⟩, ⟨"b", "", 300⟩, ⟨"c", "", 7⟩] := by
  decide

end DialogTable.FlowPlan
