import DialogTable.Proofs.Flow.Descriptor
import DialogTable.Proofs.Flow.Partition
import DialogTable.Proofs.Sample.Spoiled

/-!
# What a sample promises

A sample is to be accepted by the validator exactly if no defect was asked for, and without defects
the partition of the written table by the written flows is to find the nodes of each flow in its
bucket (`KeepsPromise`).

There are two ways to break the promise. The last of all blocks is cut short by the system
threshold, so that a long flow in it meets the error handler (`Fits`). And a node that a defect
calls missing may exist (`HarmlessDefects`). The main statement `keepsPromise_result_iff` says that
there is no other way. Below 900 flows the promise is always kept.
-/

namespace DialogTable.Sample

/-- The plan that is read from the written flows. -/
def readPlan? (sample : Sample) : Option FlowPlan :=
  (Flow.listOfText? (Flow.listToText sample.plan.flows)).bind fun flows =>
    (FlowPlan.ofFlows flows).toOption

/-- The buckets of a plan with the nodes that are read from the written table. -/
def buckets (sample : Sample) (plan : FlowPlan) : List Bucket :=
  (Partition.ofNodes (Table.ofText sample.table.toText).nodes plan).buckets

/-- The validator finds nothing in the written table. -/
def IsAccepted (sample : Sample) : Prop :=
  (Validation.validate {} false sample.table.toText).valid = true

/-- What is promised of a sample for which a number of defects was asked. -/
structure KeepsPromise (sample : Sample) (defects : Nat) : Prop where
  verdict : sample.IsAccepted ↔ defects = 0
  buckets : defects = 0 → ∃ plan, sample.readPlan? = some plan ∧
    (sample.buckets plan).map Bucket.flow = sample.plan.flows ∧
    List.Forall₂ (List.Forall₂ Node.SameData) sample.parts
      ((sample.buckets plan).map Bucket.nodes)

/-- The nodes that are called missing all exist, and nothing else was spoiled. -/
def HarmlessDefects (sample : Sample) : Prop :=
  ∀ spoiling, some spoiling ∈ sample.defects → spoiling.Harmless (Graph.numbers sample.nodes)

/-! ### Numbers -/

theorem mem_numbers_sound_iff {plan : FlowPlan} {parts : List (List Node)} {n : Int} :
    n ∈ Graph.numbers (sound plan parts) ↔
      n = 1 ∨ (∃ part ∈ parts, n ∈ Graph.numbers part) ∨ n = errorNode := by
  have hflat : n ∈ Graph.numbers parts.flatten ↔ ∃ part ∈ parts, n ∈ Graph.numbers part := by
    rw [Graph.numbers, List.map_flatten, List.mem_flatten]
    constructor
    · rintro ⟨_, hmem, hn⟩
      obtain ⟨part, hpart, rfl⟩ := List.mem_map.1 hmem
      exact ⟨part, hpart, hn⟩
    · rintro ⟨part, hpart, hn⟩
      exact ⟨_, List.mem_map_of_mem hpart, hn⟩
  rw [← hflat, sound, Graph.numbers, List.map_cons, List.map_append, List.mem_cons, List.mem_append,
    ← Graph.numbers, List.map_singleton, List.mem_singleton]
  rfl

/-- In a list of lists one is found again by a property that its members have, and no others. -/
theorem filter_flatten {α : Type} {p : α → Bool} {lists : List (List α)} {index : Nat} {l : List α}
    (hl : lists[index]? = some l) (hin : ∀ a ∈ l, p a = true)
    (hout : ∀ other m, lists[other]? = some m → other ≠ index → ∀ a ∈ m, p a = false) :
    lists.flatten.filter p = l := by
  induction lists generalizing index with
  | nil => cases hl
  | cons first rest ih =>
    rw [List.flatten_cons, List.filter_append]
    cases index with
    | zero =>
      have hrest : rest.flatten.filter p = [] := by
        refine List.filter_eq_nil_iff.2 fun a ha => ?_
        obtain ⟨m, hm, hmem⟩ := List.mem_flatten.1 ha
        obtain ⟨other, hother⟩ := List.getElem?_of_mem hm
        exact Bool.eq_false_iff.1 (hout (other + 1) m hother (Nat.succ_ne_zero other) a hmem)
      rw [← Option.some.inj hl] at hin ⊢
      rw [hrest, List.filter_eq_self.2 hin, List.append_nil]
    | succ index =>
      have hfirst : first.filter p = [] := List.filter_eq_nil_iff.2 fun a ha =>
        Bool.eq_false_iff.1 (hout 0 first rfl (Nat.zero_ne_add_one index) a ha)
      rw [hfirst, List.nil_append]
      exact ih hl fun other m hm hne => hout (other + 1) m hm fun heq => hne (Nat.succ.inj heq)

namespace Generated

variable {shape : Shape} {sample : Sample}

/-- The numbers of a part run from the start of its block on. -/
theorem part (h : Generated shape sample) {index : Nat} {nodes : List Node}
    (hnodes : sample.parts[index]? = some nodes) :
    index < shape.flows ∧ index < 999 ∧ shape.minimum ≤ nodes.length ∧
      nodes.length ≤ shape.maximum ∧ nodes.length < 100 ∧
      ∀ n, n ∈ Graph.numbers nodes ↔
        (100 + 100 * index : Int) ≤ n ∧ n < 100 + 100 * index + nodes.length := by
  obtain ⟨flow, hflow, hleast, hmost, hchain⟩ := h.parts.part hnodes
  have hstart := h.allocated.inBlocks.start_eq hflow
  have hbelow := (h.allocated.wellFormed.assignable flow (List.mem_of_getElem? hflow)).2
  have hindex := (List.getElem?_eq_some_iff.1 hflow).1
  have hsize := h.possible.2.2
  rw [h.allocated.length] at hindex
  rw [FlowPlan.blockSize] at hstart hsize
  rw [systemThreshold] at hbelow
  refine ⟨hindex, by omega, hleast, hmost, by omega, fun n => ?_⟩
  rw [hchain.mem_numbers_iff, hstart]

theorem exists_part (h : Generated shape sample) {index : Nat} (hindex : index < shape.flows) :
    ∃ nodes, sample.parts[index]? = some nodes := by
  have hlt : index < sample.parts.length := by
    rw [h.parts.length_eq, h.allocated.length]
    exact hindex
  exact ⟨_, List.getElem?_eq_getElem hlt⟩

/-- Only a flow in the last block can be too long. -/
theorem fits (h : Generated shape sample) (hroom : shape.flows < 999 ∨ shape.maximum ≤ 90) :
    sample.Fits := by
  intro nodes hnodes node hnode hsystem
  obtain ⟨index, hindex⟩ := List.getElem?_of_mem hnodes
  obtain ⟨hflows, hlast, -, hmost, hlength, hnumbers⟩ := h.part hindex
  obtain ⟨hlow, hhigh⟩ := (hnumbers node.number).1 (List.mem_map_of_mem hnode)
  rcases hsystem with hneg | hge
  · omega
  · rw [systemThreshold] at hge
    omega

/-- Of nodes that do not fit one has the number of the error handler. -/
theorem not_nodup_of_not_fits (h : Generated shape sample) (hfits : ¬ sample.Fits) :
    ¬ (Graph.numbers (sound sample.plan sample.parts)).Nodup := by
  simp only [Fits, not_forall, not_not] at hfits
  obtain ⟨nodes, hnodes, node, hnode, hsystem⟩ := hfits
  obtain ⟨index, hindex⟩ := List.getElem?_of_mem hnodes
  obtain ⟨-, hlast, -, -, -, hnumbers⟩ := h.part hindex
  obtain ⟨hlow, hhigh⟩ := (hnumbers node.number).1 (List.mem_map_of_mem hnode)
  have hge : systemThreshold ≤ node.number := hsystem.resolve_left (by omega)
  rw [systemThreshold] at hge
  have herror : errorNode ∈ Graph.numbers nodes :=
    (hnumbers errorNode).2 ⟨by rw [errorNode]; omega, by rw [errorNode]; omega⟩
  have hflat : errorNode ∈ Graph.numbers sample.parts.flatten := by
    rw [Graph.numbers, List.map_flatten]
    exact List.mem_flatten_of_mem (List.mem_map_of_mem hnodes) herror
  rw [sound, Graph.numbers, List.map_cons, List.map_append, List.nodup_cons]
  rintro ⟨-, hnodup⟩
  exact (List.nodup_append.1 hnodup).2.2 _ hflat _ List.mem_cons_self rfl

/-- No flow reaches the numbers that are called missing. -/
theorem defects_eq_zero (h : Generated shape sample) (hflows : shape.flows < 900)
    (hharmless : sample.HarmlessDefects) : shape.defects = 0 := by
  rw [← h.count, List.length_eq_zero_iff]
  refine (h.spoiled.eq_nil_or_exists_target hharmless).resolve_right ?_
  rintro ⟨target, htarget, hlow, hhigh⟩
  rw [h.spoiled.numbers_eq, mem_numbers_sound_iff] at htarget
  rcases htarget with rfl | ⟨nodes, hnodes, hmem⟩ | rfl
  · omega
  · obtain ⟨index, hindex⟩ := List.getElem?_of_mem hnodes
    obtain ⟨hbelow, -, -, -, hlength, hnumbers⟩ := h.part hindex
    have hrange := (hnumbers target).1 hmem
    omega
  · exact absurd hhigh (by decide)

theorem isAccepted_iff (h : Generated shape sample) :
    sample.IsAccepted ↔ sample.Fits ∧ sample.HarmlessDefects := by
  have hnumbers := h.spoiled.numbers_eq
  rw [IsAccepted, table, valid_toText_iff h.tame, HarmlessDefects, hnumbers]
  constructor
  · intro hissues
    have hfits : sample.Fits := by
      by_contra hfits
      exact h.not_nodup_of_not_fits hfits (hnumbers ▸ nodup_of_issues hissues)
    exact ⟨hfits, (h.spoiled.noIssues_iff h.tame_sound (h.wellFormed_sound hfits)).1 hissues⟩
  · rintro ⟨hfits, hharmless⟩
    exact (h.spoiled.noIssues_iff h.tame_sound (h.wellFormed_sound hfits)).2 hharmless

/-! ### Buckets -/

theorem readPlan?_eq (h : Generated shape sample) : sample.readPlan? = some sample.plan := by
  rw [readPlan?, Flow.listOfText?_listToText h.start_inRange, Option.bind_some,
    h.allocated.wellFormed.ofFlows_flows]
  rfl

/-- A flow owns the nodes of its part. -/
theorem ownerIndex?_eq (h : Generated shape sample) (hfits : sample.Fits) {index : Nat}
    {nodes : List Node} (hnodes : sample.parts[index]? = some nodes) {node : Node}
    (hmem : node ∈ nodes) : sample.plan.ownerIndex? node.number = some index := by
  obtain ⟨flow, hflow, -⟩ := h.parts.part hnodes
  have hstart := h.allocated.inBlocks.start_eq hflow
  obtain ⟨-, -, -, -, hlength, hnumbers⟩ := h.part hnodes
  obtain ⟨hlow, hhigh⟩ := (hnumbers node.number).1 (List.mem_map_of_mem hmem)
  rw [FlowPlan.blockSize] at hstart
  refine h.allocated.wellFormed.ownerIndex?_eq_some_iff.2 ⟨flow.start,
    ((sample.plan.flows[index + 1]?).map Flow.start).getD systemThreshold, ?_, by omega, ?_⟩
  · rw [FlowPlan.range?, hflow, Option.map_some]
  · cases hnext : sample.plan.flows[index + 1]? with
    | none =>
      have hbelow := hfits nodes (List.mem_of_getElem? hnodes) node hmem
      exact Int.not_le.1 fun hge => hbelow (.inr hge)
    | some next =>
      have hlater := h.allocated.inBlocks.start_eq hnext
      rw [FlowPlan.blockSize] at hlater
      rw [Option.map_some, Option.getD_some]
      omega

/-- Neither the welcome nor the error handler belongs to a flow. -/
theorem ownerIndex?_eq_none (h : Generated shape sample) {number : Int}
    (hnumber : number = 1 ∨ number = errorNode) : sample.plan.ownerIndex? number = none := by
  refine h.allocated.wellFormed.ownerIndex?_eq_none_iff.2 ?_
  rcases hnumber with rfl | rfl
  · refine .inr fun first hfirst => ?_
    rw [List.head?_eq_getElem?] at hfirst
    rw [h.allocated.inBlocks.start_eq hfirst]
    decide
  · exact .inl (by decide)

/-- Of all nodes a flow owns those of its part. -/
theorem filter_sound (h : Generated shape sample) (hfits : sample.Fits) {index : Nat}
    {nodes : List Node} (hnodes : sample.parts[index]? = some nodes) :
    (sound sample.plan sample.parts).filter
      (fun node => sample.plan.ownerIndex? node.number = some index) = nodes := by
  have hnone : ∀ node : Node, node.number = 1 ∨ node.number = errorNode →
      [node].filter (fun node => sample.plan.ownerIndex? node.number = some index) = [] := by
    intro node hnumber
    refine List.filter_eq_nil_iff.2 (List.forall_mem_singleton.2 ?_)
    rw [h.ownerIndex?_eq_none hnumber]
    exact of_decide_eq_false rfl
  have hother : ∀ other part, sample.parts[other]? = some part → other ≠ index → ∀ node ∈ part,
      decide (sample.plan.ownerIndex? node.number = some index) = false := by
    intro other part hpart hne node hmem
    rw [h.ownerIndex?_eq hfits hpart hmem]
    exact decide_eq_false fun heq => hne (Option.some.inj heq)
  have hparts := filter_flatten hnodes
    (fun node hmem => decide_eq_true (h.ownerIndex?_eq hfits hnodes hmem)) hother
  rw [sound, ← List.singleton_append, List.filter_append, List.filter_append, hparts,
    hnone _ (.inl rfl), hnone _ (.inr rfl), List.nil_append, List.append_nil]

/-- The buckets of a sample that fits and has no defects hold the nodes of its parts as they are
read again. -/
theorem buckets_eq (h : Generated shape sample) (hfits : sample.Fits)
    (hdefects : shape.defects = 0) :
    (sample.buckets sample.plan).map Bucket.flow = sample.plan.flows ∧
      (sample.buckets sample.plan).map Bucket.nodes =
        sample.parts.map fun nodes => nodes.map Node.readBack := by
  have hsound : sample.nodes = sound sample.plan sample.parts := by
    have hspoiled := h.spoiled
    rw [List.length_eq_zero_iff.1 (h.count.trans hdefects)] at hspoiled
    exact hspoiled.eq_of_nil
  have hread : (Table.ofText sample.table.toText).nodes =
      (sound sample.plan sample.parts).map Node.readBack := by
    rw [table, hsound, Table.nodes_ofText_toText_ofNodes
      (fun node hmem => (h.tame_sound node hmem).regular)
      (fun node hmem => (h.tame_sound node hmem).line)]
  have hbucket : ∀ index, (sample.buckets sample.plan)[index]? =
      sample.plan.flows[index]?.map fun flow =>
        Bucket.mk flow (((sound sample.plan sample.parts).filter
          (fun node => sample.plan.ownerIndex? node.number = some index)).map Node.readBack) := by
    intro index
    rw [buckets, Partition.getElem?_buckets_ofNodes, hread, List.filter_map]
    simp only [Function.comp_def, Node.number_readBack]
  constructor
  · refine List.ext_getElem? fun index => ?_
    rw [List.getElem?_map, hbucket, Option.map_map]
    exact Option.map_id'
  · refine List.ext_getElem? fun index => ?_
    rw [List.getElem?_map, hbucket, List.getElem?_map, Option.map_map]
    cases hpart : sample.parts[index]? with
    | none =>
      have hlength := List.getElem?_eq_none_iff.1 hpart
      rw [h.parts.length_eq] at hlength
      rw [List.getElem?_eq_none hlength]
      rfl
    | some nodes =>
      obtain ⟨flow, hflow, -⟩ := h.parts.part hpart
      rw [hflow, Option.map_some, Option.map_some, Function.comp_apply,
        h.filter_sound hfits hpart]

/-- The promise is kept exactly if nothing is amiss just when no defect was asked for. -/
theorem keepsPromise_iff (h : Generated shape sample) :
    sample.KeepsPromise shape.defects ↔
      (sample.Fits ∧ sample.HarmlessDefects ↔ shape.defects = 0) := by
  rw [← h.isAccepted_iff]
  refine ⟨KeepsPromise.verdict, fun hverdict => ⟨hverdict, fun hdefects => ?_⟩⟩
  have hfits := (h.isAccepted_iff.1 (hverdict.2 hdefects)).1
  obtain ⟨hflows, hnodes⟩ := h.buckets_eq hfits hdefects
  refine ⟨sample.plan, h.readPlan?_eq, hflows, ?_⟩
  rw [hnodes, List.forall₂_map_right_iff, List.forall₂_same]
  intro nodes hpart
  rw [List.forall₂_map_right_iff, List.forall₂_same]
  intro node hnode
  refine (h.tame_sound node ?_).writable.sameData
  exact List.mem_cons_of_mem _ (List.mem_append_left _ (List.mem_flatten_of_mem hpart hnode))

/-- A flow in the last block does not fit if it is long enough. -/
theorem not_fits (h : Generated shape sample) (hflows : shape.flows = 999)
    (hleast : 91 ≤ shape.minimum) : ¬ sample.Fits := by
  have hindex : 998 < shape.flows := by omega
  obtain ⟨nodes, hlast⟩ := h.exists_part hindex
  obtain ⟨-, -, hminimum, -, -, hnumbers⟩ := h.part hlast
  have herror : errorNode ∈ Graph.numbers nodes :=
    (hnumbers errorNode).2 ⟨by rw [errorNode]; omega, by rw [errorNode]; omega⟩
  obtain ⟨node, hnode, hnumber⟩ := List.mem_map.1 herror
  refine fun hfits => hfits nodes (List.mem_of_getElem? hlast) node hnode (.inr ?_)
  rw [hnumber]
  decide

/-- The first number that a missing node may have begins a block. -/
theorem mem_numbers (h : Generated shape sample) (hflows : 900 ≤ shape.flows) :
    90000 ∈ Graph.numbers sample.nodes := by
  have hindex : 899 < shape.flows := by omega
  obtain ⟨nodes, hnodes⟩ := h.exists_part hindex
  obtain ⟨-, -, hminimum, -, -, hnumbers⟩ := h.part hnodes
  have hpositive := h.possible.1
  rw [h.spoiled.numbers_eq, mem_numbers_sound_iff]
  exact .inr (.inl ⟨nodes, List.mem_of_getElem? hnodes, (hnumbers 90000).2 ⟨by omega, by omega⟩⟩)

end Generated

/-! ### Whatever is drawn -/

/-- **When a sample keeps its promise.** Whatever is drawn, the validator accepts the written table
exactly if the sample fits and all its defects are harmless. So the promise is kept exactly if this
is the case just when no defect was asked for. It is kept below 900 flows, and without defects also
as long as there is no flow in the last block or none has more than 90 nodes. -/
theorem keepsPromise_result_iff {shape : Shape} (hs : shape.IsPossible) (hflows : 1 ≤ shape.flows)
    {plan : FlowPlan} (hplan : allocate shape.flows = .ok plan) (tape : Nat → Nat) :
    let sample := (draw shape plan).result tape
    (sample.IsAccepted ↔ sample.Fits ∧ sample.HarmlessDefects) ∧
      (sample.KeepsPromise shape.defects ↔
        (sample.Fits ∧ sample.HarmlessDefects ↔ shape.defects = 0)) ∧
      (shape.flows < 900 → sample.KeepsPromise shape.defects) ∧
      (shape.defects = 0 → shape.flows < 999 ∨ shape.maximum ≤ 90 →
        sample.KeepsPromise shape.defects) := by
  intro sample
  have h : Generated shape sample := generated_result hs hflows hplan tape
  have hsound : shape.defects = 0 → sample.HarmlessDefects := by
    intro hdefects spoiling hmem
    rw [List.length_eq_zero_iff.1 (h.count.trans hdefects)] at hmem
    cases hmem
  refine ⟨h.isAccepted_iff, h.keepsPromise_iff, fun hfew => ?_, fun hdefects hroom => ?_⟩
  · refine h.keepsPromise_iff.2 ⟨fun hboth => h.defects_eq_zero hfew hboth.2, fun hdefects => ?_⟩
    exact ⟨h.fits (.inl (by omega)), hsound hdefects⟩
  · exact h.keepsPromise_iff.2 (iff_of_true ⟨h.fits hroom, hsound hdefects⟩ hdefects)

/-- Two flows with one defect. -/
theorem keepsPromise_of_two_flows :
    let shape : Shape := { flows := 2, minimum := 1, maximum := 3, defects := 1 }
    let plan : FlowPlan :=
      { flows := [⟨"flow_1", "Generated flow 1", 100⟩, ⟨"flow_2", "Generated flow 2", 200⟩] }
    shape.IsPossible ∧ 1 ≤ shape.flows ∧ allocate shape.flows = .ok plan ∧
      ((draw shape plan).result fun n => 7 * n).KeepsPromise shape.defects := by
  intro shape plan
  have hs : shape.IsPossible := by decide
  have hflows : 1 ≤ shape.flows := by decide
  have hplan : allocate shape.flows = .ok plan := by rfl
  exact ⟨hs, hflows, hplan,
    (keepsPromise_result_iff hs hflows hplan fun n => 7 * n).2.2.1 (by decide)⟩

/-- On a tape of zeros the one defect calls the first number missing that it may. -/
theorem spoil_one_zeros {nodes : List Node} (h : 3 ≤ nodes.length) (position : Nat) :
    ∃ number, (spoil 1 nodes (fun _ => 0) position).1.2 =
      [some { number, defect := .missingNode 90000 }] := by
  match nodes, h with
  | _ :: node :: _ :: _, _ => exact ⟨node.number, rfl⟩

theorem harmlessDefects_zeros {shape : Shape} (hs : shape.IsPossible) (hflows : 900 ≤ shape.flows)
    (hdefects : shape.defects = 1) {plan : FlowPlan} (hplan : allocate shape.flows = .ok plan) :
    ((draw shape plan).result fun _ => 0).HarmlessDefects := by
  have h := generated_result hs (by omega) hplan fun _ => 0
  obtain ⟨parts, position, hspoil, hparts⟩ : ∃ parts position,
      ((draw shape plan).result fun _ => 0).defects =
        (spoil shape.defects (sound plan parts) (fun _ => 0) position).1.2 ∧
      Chains shape plan.flows parts :=
    ⟨_, _, rfl, yields_chains hs plan.flows (fun _ => 0) 0⟩
  obtain ⟨number, hone⟩ := spoil_one_zeros (three_le_length_sound hparts h.hasFlow) position
  rw [hdefects, hone] at hspoil
  intro spoiling hmem
  rw [hspoil, List.mem_singleton, Option.some.injEq] at hmem
  subst hmem
  exact ⟨90000, h.mem_numbers hflows, rfl⟩

/-- A flow of 91 nodes in the last block meets the error handler, so that a sample is not accepted
though no defect was asked for. And the first node of the 900th flow has a number that a defect may
call missing, so that a sample is accepted with this defect. -/
theorem promises_broken :
    (∃ plan, allocate 999 = .ok plan ∧
      ¬ ((draw { flows := 999, minimum := 91, maximum := 91, defects := 0 } plan).result
        fun _ => 0).KeepsPromise 0) ∧
    ∃ plan, allocate 900 = .ok plan ∧
      ¬ ((draw { flows := 900, minimum := 1, maximum := 1, defects := 1 } plan).result
        fun _ => 0).KeepsPromise 1 := by
  obtain ⟨long, hlong⟩ := exists_allocate_iff.2 (Nat.le_refl 999)
  obtain ⟨short, hshort⟩ := exists_allocate_iff.2 (by decide : 900 ≤ 999)
  refine ⟨⟨long, hlong, ?_⟩, ⟨short, hshort, ?_⟩⟩
  · have hpossible : Shape.IsPossible
        { flows := 999, minimum := 91, maximum := 91, defects := 0 } := by decide
    have h := generated_result hpossible (by decide) hlong fun _ => 0
    exact fun hkept => h.not_fits rfl (by decide) (h.isAccepted_iff.1 (hkept.verdict.2 rfl)).1
  · have hpossible : Shape.IsPossible
        { flows := 900, minimum := 1, maximum := 1, defects := 1 } := by decide
    have h := generated_result hpossible (by decide) hshort fun _ => 0
    have hharmless := harmlessDefects_zeros hpossible (by decide) rfl hshort
    exact fun hkept => Nat.one_ne_zero
      (hkept.verdict.1 (h.isAccepted_iff.2 ⟨h.fits (.inl (by decide)), hharmless⟩))

end DialogTable.Sample
