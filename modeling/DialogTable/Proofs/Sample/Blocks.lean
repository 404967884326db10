import DialogTable.Proofs.Flow.Reachable
import DialogTable.Sample

/-!
# The blocks of a sample

The flows of a sample stand in blocks that follow one another from the first one on
(`allocated_of_allocate`). There is room for 999 of them below the system threshold, and no more
(`exists_allocate_iff`). The last of these blocks is cut short by the threshold.
-/

namespace DialogTable.Sample

/-! ### Blocks in a row -/

/-- Flows in blocks that follow one another from a number on. -/
def InBlocks : Int → List Flow → Prop
  | _, [] => True
  | start, flow :: rest => flow.start = start ∧ InBlocks (start + FlowPlan.blockSize) rest

theorem InBlocks.append {start : Int} {flows : List Flow} (h : InBlocks start flows) {flow : Flow}
    (hflow : flow.start = start + FlowPlan.blockSize * flows.length) :
    InBlocks start (flows ++ [flow]) := by
  induction flows generalizing start with
  | nil => exact ⟨by simpa using hflow, trivial⟩
  | cons first rest ih =>
    refine ⟨h.1, ih h.2 ?_⟩
    rw [hflow, List.length_cons, FlowPlan.blockSize]
    omega

theorem InBlocks.start_eq {start : Int} {flows : List Flow} (h : InBlocks start flows) {index : Nat}
    {flow : Flow} (hflow : flows[index]? = some flow) :
    flow.start = start + FlowPlan.blockSize * index := by
  induction flows generalizing start index with
  | nil => cases hflow
  | cons first rest ih =>
    cases index with
    | zero =>
      rw [← Option.some.inj hflow, h.1]
      exact (Int.add_zero start).symm
    | succ index =>
      rw [ih h.2 hflow, FlowPlan.blockSize]
      omega

/-! ### Allocated plans -/

/-- What a plan with a number of allocated flows is. -/
structure Allocated (flows : Nat) (plan : FlowPlan) : Prop where
  wellFormed : plan.WellFormed
  inBlocks : InBlocks FlowPlan.blockSize plan.flows
  length : plan.flows.length = flows

/-- The next block is free. -/
theorem Allocated.nextStart {flows : Nat} {plan : FlowPlan} (h : Allocated flows plan) :
    plan.nextStart = FlowPlan.blockSize + FlowPlan.blockSize * flows := by
  rw [FlowPlan.nextStart, ← h.length]
  cases hlast : plan.flows.getLast? with
  | none =>
    rw [List.getLast?_eq_none_iff.1 hlast]
    rfl
  | some last =>
    rw [List.getLast?_eq_getElem?] at hlast
    have hpositive : 0 < plan.flows.length := List.length_pos_iff.2 fun hnil => by
      rw [hnil] at hlast
      cases hlast
    have hstart := h.inBlocks.start_eq hlast
    simp only [FlowPlan.blockSize] at hstart ⊢
    omega

theorem Allocated.allocate {flows : Nat} {plan after : FlowPlan} (h : Allocated flows plan)
    {name description : String} (hafter : plan.allocate name description = .ok after) :
    Allocated (flows + 1) after := by
  have hadding := plan.adding_addFlow name description
  have hwell := h.wellFormed.addFlow name description
  rw [FlowPlan.allocate] at hafter
  generalize plan.addFlow name description = result at hadding hwell hafter
  cases hadding with
  | taken _ => cases hafter
  | exhausted _ _ => cases hafter
  | added _ _ =>
    cases hafter
    refine ⟨hwell, h.inBlocks.append ?_, ?_⟩
    · rw [h.length]
      exact h.nextStart
    · rw [List.length_append, h.length]
      rfl

theorem allocated_of_allocateFrom {flows index left : Nat} {plan after : FlowPlan}
    (h : Allocated flows plan) (hafter : allocateFrom plan index left = .ok after) :
    Allocated (flows + left) after := by
  induction left generalizing flows index plan with
  | zero =>
    cases hafter
    exact h
  | succ left ih =>
    rw [allocateFrom] at hafter
    split at hafter
    · cases hafter
    · next next hnext =>
      have hall := ih (h.allocate hnext) hafter
      rw [Nat.add_right_comm] at hall
      exact hall

theorem allocated_zero : Allocated 0 {} :=
  ⟨⟨List.Pairwise.nil, nofun, List.nodup_nil⟩, trivial, rfl⟩

/-- The flows of a sample stand in blocks that follow one another. -/
theorem allocated_of_allocate {flows : Nat} {plan : FlowPlan} (h : allocate flows = .ok plan) :
    Allocated flows plan := by
  have hall := allocated_of_allocateFrom allocated_zero h
  rw [Nat.zero_add] at hall
  exact hall

/-! ### Room for flows -/

theorem flowName_inj {a b : Nat} (h : s!"flow_{a}" = s!"flow_{b}") : a = b := by
  have htext : (toString a).toList = (toString b).toList := by
    have hall := congrArg String.toList h
    rw [String.toList_append, String.toList_append] at hall
    exact List.append_cancel_left hall
  have hdigits : Nat.toDigits 10 a = Nat.toDigits 10 b := by
    rw [← Nat.toList_repr, ← Nat.toList_repr]
    exact htext
  rw [← Nat.ofDigitChars_ten_toDigits (n := a), hdigits, Nat.ofDigitChars_ten_toDigits]

theorem exists_allocateFrom {flows index left : Nat} {plan : FlowPlan} (h : Allocated flows plan)
    (hnames : ∀ flow ∈ plan.flows, ∃ i < index, flow.name = s!"flow_{i}")
    (hroom : flows + left ≤ 999) : ∃ after, allocateFrom plan index left = .ok after := by
  induction left generalizing flows index plan with
  | zero => exact ⟨plan, rfl⟩
  | succ left ih =>
    have hfree : s!"flow_{index}" ∉ plan.flows.map Flow.name := by
      rintro hmem
      obtain ⟨flow, hflow, hname⟩ := List.mem_map.1 hmem
      obtain ⟨i, hi, heq⟩ := hnames flow hflow
      exact Nat.ne_of_lt hi (flowName_inj (heq.symm.trans hname))
    have hstart : ¬ systemThreshold ≤ plan.nextStart := by
      rw [h.nextStart, FlowPlan.blockSize, systemThreshold]
      omega
    have hnext : plan.allocate s!"flow_{index}" s!"Generated flow {index}" =
        .ok { flows := plan.flows ++ [{
          name := s!"flow_{index}", description := s!"Generated flow {index}"
          start := plan.nextStart }] } := by
      rw [FlowPlan.allocate, FlowPlan.addFlow, if_neg hfree, if_neg hstart]
      rfl
    rw [allocateFrom, hnext]
    refine ih (h.allocate hnext) ?_ (by omega)
    refine List.forall_mem_append.2 ⟨fun flow hflow => ?_,
      List.forall_mem_singleton.2 ⟨index, Nat.lt_succ_self index, rfl⟩⟩
    obtain ⟨i, hi, heq⟩ := hnames flow hflow
    exact ⟨i, Nat.lt_succ_of_lt hi, heq⟩

/-- There are 999 blocks that a flow can start in. -/
theorem exists_allocate_iff {flows : Nat} : (∃ plan, allocate flows = .ok plan) ↔ flows ≤ 999 := by
  constructor
  · rintro ⟨plan, hplan⟩
    have hallocated := allocated_of_allocate hplan
    rcases Nat.eq_zero_or_pos flows with rfl | hpos
    · exact Nat.zero_le _
    · have hlast : flows - 1 < plan.flows.length := by
        rw [hallocated.length]
        omega
      have hstart := hallocated.inBlocks.start_eq (List.getElem?_eq_getElem hlast)
      have hbelow := (hallocated.wellFormed.assignable _ (List.getElem_mem hlast)).2
      rw [hstart, FlowPlan.blockSize, systemThreshold] at hbelow
      omega
  · intro h
    have hnames : ∀ flow ∈ ({} : FlowPlan).flows, ∃ i < 1, flow.name = s!"flow_{i}" :=
      List.forall_mem_nil _
    exact exists_allocateFrom allocated_zero hnames (by omega)

end DialogTable.Sample
