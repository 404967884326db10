import DialogTable.Proofs.Validation.Mending

/-!
# Findings node by node

Two checks propose fixes, and both go through the nodes one by one. What they find at a node depends
on the node, its position and the known numbers. So the fixes of a table are the edits proposed for
its nodes (`edit_fixes`), and fixing a table mends each of its nodes (`nodes_applyAll_fixes`).
-/

namespace DialogTable.Validation

/-! ### Lists made node by node -/

/-- What a function gives for the nodes at their positions, in one list. -/
def overNodes {α : Type} (f : Nat → Node → List α) (nodes : List Node) : List α :=
  (nodes.mapIdx f).flatten

section OverNodes

variable {α β γ : Type}

theorem overNodes_cons (f : Nat → Node → List α) (node : Node) (rest : List Node) :
    overNodes f (node :: rest) = f 0 node ++ overNodes (fun i => f (i + 1)) rest := by
  rw [overNodes, List.mapIdx_cons, List.flatten_cons, overNodes]

/-- Where the positions do not matter they may be left out. -/
theorem mapIdx_of_forall_eq {f : Nat → α → β} {g : α → β} (h : ∀ i a, f i a = g a) (l : List α) :
    l.mapIdx f = l.map g := by
  induction l generalizing f with
  | nil => rfl
  | cons a rest ih => rw [List.mapIdx_cons, h, ih fun i => h (i + 1), List.map_cons]

theorem map_mapIdx (h : β → γ) (f : Nat → α → β) (l : List α) :
    (l.mapIdx f).map h = l.mapIdx fun i a => h (f i a) := by
  induction l generalizing f with
  | nil => rfl
  | cons a rest ih => rw [List.mapIdx_cons, List.map_cons, ih, List.mapIdx_cons]

theorem overNodes_eq_flatMap {f : Nat → Node → List α} {g : Node → List α}
    (h : ∀ i node, f i node = g node) (nodes : List Node) : overNodes f nodes = nodes.flatMap g := by
  rw [overNodes, mapIdx_of_forall_eq h, List.flatMap_def]

theorem overNodes_map (f : Nat → Node → List α) (g : Node → Node) (nodes : List Node) :
    overNodes f (nodes.map g) = overNodes (fun i node => f i (g node)) nodes := by
  induction nodes generalizing f with
  | nil => rfl
  | cons node rest ih => rw [List.map_cons, overNodes_cons, overNodes_cons, ih]

theorem filterMap_overNodes (h : α → Option β) (f : Nat → Node → List α) (nodes : List Node) :
    (overNodes f nodes).filterMap h = overNodes (fun i node => (f i node).filterMap h) nodes := by
  induction nodes generalizing f with
  | nil => rfl
  | cons node rest ih => rw [overNodes_cons, List.filterMap_append, overNodes_cons, ih]

theorem map_overNodes (h : α → β) (f : Nat → Node → List α) (nodes : List Node) :
    (overNodes f nodes).map h = overNodes (fun i node => (f i node).map h) nodes := by
  rw [overNodes, List.map_flatten, map_mapIdx, overNodes]

theorem mem_overNodes {f : Nat → Node → List α} {nodes : List Node} {a : α} :
    a ∈ overNodes f nodes ↔ ∃ i node, nodes[i]? = some node ∧ a ∈ f i node := by
  rw [overNodes, List.mem_flatten]
  constructor
  · rintro ⟨part, hpart, ha⟩
    obtain ⟨i, hi, rfl⟩ := List.mem_mapIdx.1 hpart
    exact ⟨i, nodes[i], List.getElem?_eq_getElem hi, ha⟩
  · rintro ⟨i, node, hnode, ha⟩
    obtain ⟨hi, rfl⟩ := List.getElem?_eq_some_iff.1 hnode
    exact ⟨f i nodes[i], List.mem_mapIdx.2 ⟨i, hi, rfl⟩, ha⟩

theorem overNodes_eq_nil_iff {f : Nat → Node → List α} {nodes : List Node} :
    overNodes f nodes = [] ↔ ∀ i node, nodes[i]? = some node → f i node = [] := by
  rw [List.eq_nil_iff_forall_not_mem]
  constructor
  · intro h i node hnode
    rw [List.eq_nil_iff_forall_not_mem]
    exact fun a ha => h a (mem_overNodes.2 ⟨i, node, hnode, ha⟩)
  · intro h a ha
    obtain ⟨i, node, hnode, ha⟩ := mem_overNodes.1 ha
    rw [h i node hnode] at ha
    exact absurd ha List.not_mem_nil

theorem overNodes_sublist {f g : Nat → Node → List α} {nodes : List Node}
    (h : ∀ i, ∀ node ∈ nodes, (f i node).Sublist (g i node)) :
    (overNodes f nodes).Sublist (overNodes g nodes) := by
  induction nodes generalizing f g with
  | nil => exact List.Sublist.refl _
  | cons node rest ih =>
    rw [overNodes_cons, overNodes_cons]
    exact (h 0 node List.mem_cons_self).append
      (ih fun i other ho => h (i + 1) other (List.mem_cons_of_mem node ho))

theorem overNodes_congr {f g : Nat → Node → List α} (h : ∀ i node, f i node = g i node)
    (nodes : List Node) : overNodes f nodes = overNodes g nodes := by
  rw [funext fun i => funext (h i)]

end OverNodes

theorem filter_map_fix (edits : List Edit) (i position : Nat) :
    ((edits.map (Fix.mk i)).filter (·.position = position)).map Fix.edit =
      if i = position then edits else [] := by
  rw [List.filter_map, List.map_map]
  split
  · next h =>
    rw [List.filter_eq_self.2 fun edit _ => by simpa using h]
    exact List.map_id edits
  · next h =>
    rw [List.filter_eq_nil_iff.2 fun edit _ => by simpa using h]
    rfl

/-- The fixes for a position are the edits that were made for the node there. -/
theorem filter_overNodes_fix (f : Node → List Edit) (nodes : List Node) (start position : Nat) :
    ((overNodes (fun i node => (f node).map (Fix.mk (start + i))) nodes).filter
        (·.position = position)).map Fix.edit =
      if start ≤ position then (nodes[position - start]?.map f).getD [] else [] := by
  induction nodes generalizing start with
  | nil => simp [overNodes]
  | cons node rest ih =>
    have hshift : (fun i node => (f node).map (Fix.mk (start + (i + 1)))) =
        fun i node => (f node).map (Fix.mk (start + 1 + i)) := by
      funext i node
      rw [Nat.add_assoc, Nat.add_comm 1 i]
    rw [overNodes_cons, hshift, List.filter_append, List.map_append, filter_map_fix, ih,
      Nat.add_zero]
    rcases Nat.lt_trichotomy start position with hlt | rfl | hgt
    · have hsub : position - start = position - (start + 1) + 1 := by omega
      rw [if_neg (Nat.ne_of_lt hlt), if_pos (Nat.succ_le_of_lt hlt), if_pos (Nat.le_of_lt hlt), hsub,
        List.getElem?_cons_succ, List.nil_append]
    · rw [if_pos rfl, if_neg (Nat.not_succ_le_self start), if_pos le_rfl, Nat.sub_self,
        List.append_nil]
      rfl
    · rw [if_neg (Nat.ne_of_gt hgt), if_neg (by omega), if_neg (by omega), List.append_nil]

/-! ### The findings of the two checks that propose fixes -/

/-- The reference that a next node is. -/
def nextReference (target : Int) : Reference :=
  { target, origin := .nextNode, label := none }

/-- The reference that a route is. -/
def routeReference (route : Route) : Reference :=
  { target := route.target, origin := .route, label := some route.label }

section Node

variable (policy : Policy) (known : List Int) (position : Nat) (node : Node)

/-- The choices that lead to nodes that do not exist. -/
def strayChoices : List Reference :=
  node.choices.filter (·.target ∉ known)

/-- What is found at the next nodes. -/
def nextFindings : List Finding :=
  match strayNextNodes known node with
  | [] => []
  | target :: later =>
    danglingFinding policy known position node (!hasExit known node) (nextReference target)
      :: later.map fun target =>
        danglingFinding policy known position node false (nextReference target)

/-- What is found at the routes. -/
def routeFindings : List Finding :=
  (strayRoutes known node).map fun route =>
    danglingFinding policy known position node false (routeReference route)

/-- What is found at the choices. -/
def choiceFindings : List Finding :=
  (strayChoices known node).map (danglingFinding policy known position node false)

/-- What is found at the references of a node. -/
def referenceFindings : List Finding :=
  nextFindings policy known position node ++ routeFindings policy known position node
    ++ choiceFindings policy known position node

/-- What is found where a route for errors is missing. -/
def errorFindings : List Finding :=
  if LacksErrorRoute node then
    [Finding.ofFix
      ((policy.target? known node.number node.number).map fun newTarget =>
        { position, edit := .insertErrorRoute newTarget })
      node.number .whatNext s!"Action node has no '{errorLabel}' route"]
  else []

theorem danglingFinding_of_ne_nextNode (repoint : Bool) {reference : Reference}
    (h : reference.origin ≠ .nextNode) :
    danglingFinding policy known position node repoint reference =
      danglingFinding policy known position node false reference := by
  rw [danglingFinding, danglingFinding]
  cases horigin : reference.origin with
  | nextNode => exact absurd horigin h
  | route => rfl
  | choice => rfl

/-- Only the first reference may be re-pointed. -/
theorem mapIdx_danglingFinding (repoint : Bool) (first : Reference) (later : List Reference) :
    ((first :: later).mapIdx fun i reference =>
        danglingFinding policy known position node (i == 0 && repoint) reference) =
      danglingFinding policy known position node repoint first
        :: later.map (danglingFinding policy known position node false) := by
  have hlater : ∀ i reference,
      danglingFinding policy known position node (i + 1 == 0 && repoint) reference =
        danglingFinding policy known position node false reference := by
    intro i reference
    rw [beq_false_of_ne (Nat.succ_ne_zero i), Bool.false_and]
  rw [List.mapIdx_cons, mapIdx_of_forall_eq hlater]
  rfl

/-- Routes and choices are found the same way in any place. -/
theorem mapIdx_danglingFinding_of_ne_nextNode (repoint : Bool) (references : List Reference)
    (h : ∀ reference ∈ references, reference.origin ≠ .nextNode) :
    (references.mapIdx fun i reference =>
        danglingFinding policy known position node (i == 0 && repoint) reference) =
      references.map (danglingFinding policy known position node false) := by
  cases references with
  | nil => rfl
  | cons first later =>
    rw [mapIdx_danglingFinding, List.map_cons,
      danglingFinding_of_ne_nextNode _ _ _ _ repoint (h first List.mem_cons_self)]

theorem origin_of_mem_choices {reference : Reference} (h : reference ∈ node.choices) :
    reference.origin = .choice := by
  rw [Node.choices] at h
  split at h
  · exact absurd h List.not_mem_nil
  · obtain ⟨destination, -, rfl⟩ := List.mem_map.1 h
    rfl

theorem filter_references :
    (node.references.filter fun reference => !decide (reference.target ∈ known)) =
      (strayNextNodes known node).map nextReference ++ (strayRoutes known node).map routeReference
        ++ strayChoices known node := by
  have hnot : ∀ target, (!decide (target ∈ known)) = decide (target ∉ known) :=
    fun target => (decide_not ..).symm
  simp only [hnot]
  rw [Node.references_eq, List.filter_append, List.filter_append, List.filter_map, List.filter_map]
  rfl

theorem mapIdx_strayReferences :
    ((node.references.filter fun reference => !decide (reference.target ∈ known)).mapIdx
        fun i reference =>
          danglingFinding policy known position node (i == 0 && !hasExit known node) reference) =
      referenceFindings policy known position node := by
  rw [filter_references, referenceFindings, nextFindings]
  cases strayNextNodes known node with
  | nil =>
    rw [List.map_nil, List.nil_append, mapIdx_danglingFinding_of_ne_nextNode, List.map_append,
      List.map_map]
    · rfl
    · intro reference hmem
      rcases List.mem_append.1 hmem with hmem | hmem
      · obtain ⟨route, -, rfl⟩ := List.mem_map.1 hmem
        exact nofun
      · rw [origin_of_mem_choices node (List.mem_of_mem_filter hmem)]
        exact nofun
  | cons target later =>
    rw [List.map_cons, List.cons_append, List.cons_append, mapIdx_danglingFinding, List.map_append,
      List.map_append, List.map_map, List.map_map]
    rfl

end Node

theorem checkReferences_eq (policy : Policy) (nodes : List Node) :
    checkReferences policy (Graph.ofNodes nodes) =
      overNodes (referenceFindings policy (Graph.numbers nodes)) nodes := by
  have hcontains : (Graph.ofNodes nodes).contains = fun n => decide (n ∈ Graph.numbers nodes) :=
    funext (Graph.contains_ofNodes nodes)
  rw [checkReferences, overNodes]
  simp only [danglingReferences, hcontains]
  congr 2
  funext position node
  exact mapIdx_strayReferences policy (Graph.numbers nodes) position node

theorem checkErrorRoutes_eq (policy : Policy) (nodes : List Node) :
    checkErrorRoutes policy nodes =
      overNodes (errorFindings policy (Graph.numbers nodes)) nodes := rfl

/-! ### The proposed fixes -/

/-- The fixes of all findings. -/
def fixes (policy : Policy) (nodes : List Node) : List Fix :=
  (findings policy nodes).filterMap Finding.fix

section Node

variable (policy : Policy) (known : List Int) (position : Nat) (node : Node)

theorem fix_nextFindings :
    (nextFindings policy known position node).filterMap Finding.fix =
      (nextEdits policy known node).map (Fix.mk position) := by
  have hdrop : ∀ later : List Int,
      (later.map fun target =>
          danglingFinding policy known position node false (nextReference target)).filterMap
        Finding.fix = (later.map Edit.dropNextNode).map (Fix.mk position) := by
    intro later
    rw [List.filterMap_map, List.map_map, ← List.filterMap_eq_map]
    rfl
  rw [nextFindings, nextEdits]
  cases strayNextNodes known node with
  | nil => rfl
  | cons target later =>
    dsimp only
    rw [List.map_append, ← hdrop]
    cases hasExit known node with
    | true => rfl
    | false =>
      have hfix : (danglingFinding policy known position node true (nextReference target)).fix =
          (policy.target? known node.number target).map fun newTarget =>
            { position, edit := .repointNextNode target newTarget } := rfl
      rw [Bool.not_false, if_neg Bool.false_ne_true, List.filterMap_cons, hfix]
      cases policy.target? known node.number target <;> rfl

theorem fix_routeFindings :
    (routeFindings policy known position node).filterMap Finding.fix =
      (routeEdits policy known node).map (Fix.mk position) := by
  rw [routeFindings, routeEdits, List.filterMap_map, List.map_filterMap]
  apply List.filterMap_congr
  intro route _
  exact (Option.map_map ..).symm

theorem fix_errorFindings :
    (errorFindings policy known position node).filterMap Finding.fix =
      (errorEdits policy known node).map (Fix.mk position) := by
  rw [errorFindings, errorEdits]
  split
  · cases policy.target? known node.number node.number <;> rfl
  · rfl

end Node

/-! ### Findings and their issues -/

/-- An issue counts as fixable if there is a fix for it. -/
def Finding.Coherent (finding : Finding) : Prop :=
  finding.issue.fixable = finding.fix.isSome

theorem coherent_ofFix (fix : Option Fix) (node : Int) (column : Column) (message : String) :
    (Finding.ofFix fix node column message).Coherent := rfl

theorem coherent_danglingFinding (policy : Policy) (known : List Int) (position : Nat)
    (node : Node) (repoint : Bool) (reference : Reference) :
    (danglingFinding policy known position node repoint reference).Coherent := by
  rw [danglingFinding]
  cases reference.origin <;> exact coherent_ofFix _ _ _ _

/-- A finding that is left to the author. -/
def Finding.IsManual (finding : Finding) : Prop :=
  finding.fix = none ∧ finding.Coherent

theorem isManual_manual (node : Int) (column : Column) (message : String) :
    (Finding.manual node column message).IsManual :=
  ⟨rfl, rfl⟩

section Manual

variable {policy : Policy} {nodes : List Node} {finding : Finding}

theorem isManual_of_mem_checkNumbers (h : finding ∈ checkNumbers nodes) : finding.IsManual := by
  obtain ⟨number, -, rfl⟩ := List.mem_map.1 h
  exact isManual_manual _ _ _

theorem isManual_of_mem_checkContent (h : finding ∈ checkContent nodes) : finding.IsManual := by
  obtain ⟨node, -, hnode⟩ := List.mem_filterMap.1 h
  split at hnode <;> split at hnode
  · rw [← Option.some.inj hnode]
    exact isManual_manual _ _ _
  · cases hnode
  · rw [← Option.some.inj hnode]
    exact isManual_manual _ _ _
  · cases hnode

/-- There are no issues exactly if no check finds anything. -/
theorem issues_eq_nil_iff_checks : issues policy nodes = [] ↔
    checkNumbers nodes = [] ∧ checkReferences policy (Graph.ofNodes nodes) = [] ∧
      checkContent nodes = [] ∧ checkReached (Graph.ofNodes nodes) = [] ∧
      checkExits policy (Graph.ofNodes nodes) = [] ∧ checkErrorRoutes policy nodes = [] := by
  simp only [issues, findings, List.map_eq_nil_iff, List.append_eq_nil_iff, and_assoc]

/-- What lacks its content is an issue. -/
theorem issues_ne_nil_of_checkContent (h : checkContent nodes ≠ []) :
    issues policy nodes ≠ [] :=
  fun hnone => h (issues_eq_nil_iff_checks.1 hnone).2.2.1

theorem isManual_of_mem_checkReached {graph : Graph} (h : finding ∈ checkReached graph) :
    finding.IsManual := by
  obtain ⟨number, -, rfl⟩ := List.mem_map.1 h
  exact isManual_manual _ _ _

theorem isManual_of_mem_checkExits {graph : Graph} (h : finding ∈ checkExits policy graph) :
    finding.IsManual := by
  obtain ⟨node, -, rfl⟩ := List.mem_map.1 h
  exact isManual_manual _ _ _

/-- Choices are left to the author. -/
theorem isManual_of_mem_choiceFindings {known : List Int} {position : Nat} {node : Node}
    (h : finding ∈ choiceFindings policy known position node) : finding.IsManual := by
  obtain ⟨reference, hmem, rfl⟩ := List.mem_map.1 h
  refine ⟨?_, coherent_danglingFinding _ _ _ _ _ _⟩
  rw [danglingFinding, origin_of_mem_choices node (List.mem_of_mem_filter hmem)]
  rfl

/-- Whatever is found at the references of a node is found at one of them. -/
theorem exists_of_mem_referenceFindings {known : List Int} {position : Nat} {node : Node}
    (h : finding ∈ referenceFindings policy known position node) :
    ∃ repoint reference, finding = danglingFinding policy known position node repoint reference := by
  rcases List.mem_append.1 h with h | h
  · rcases List.mem_append.1 h with h | h
    · rw [nextFindings] at h
      split at h
      · exact absurd h List.not_mem_nil
      · rcases List.mem_cons.1 h with rfl | h
        · exact ⟨_, _, rfl⟩
        · obtain ⟨target, -, rfl⟩ := List.mem_map.1 h
          exact ⟨_, _, rfl⟩
    · obtain ⟨route, -, rfl⟩ := List.mem_map.1 h
      exact ⟨_, _, rfl⟩
  · obtain ⟨reference, -, rfl⟩ := List.mem_map.1 h
    exact ⟨_, _, rfl⟩

theorem coherent_of_mem_referenceFindings {known : List Int} {position : Nat} {node : Node}
    (h : finding ∈ referenceFindings policy known position node) : finding.Coherent := by
  obtain ⟨repoint, reference, rfl⟩ := exists_of_mem_referenceFindings h
  exact coherent_danglingFinding _ _ _ _ _ _

theorem coherent_of_mem_errorFindings {known : List Int} {position : Nat} {node : Node}
    (h : finding ∈ errorFindings policy known position node) : finding.Coherent := by
  rw [errorFindings] at h
  split at h
  · rw [List.mem_singleton.1 h]
    exact coherent_ofFix _ _ _ _
  · exact absurd h List.not_mem_nil

/-- All findings are coherent. -/
theorem coherent_of_mem_findings (h : finding ∈ findings policy nodes) : finding.Coherent := by
  simp only [findings, List.mem_append] at h
  rcases h with ((((h | h) | h) | h) | h) | h
  · exact (isManual_of_mem_checkNumbers h).2
  · rw [checkReferences_eq] at h
    obtain ⟨i, node, -, hmem⟩ := mem_overNodes.1 h
    exact coherent_of_mem_referenceFindings hmem
  · exact (isManual_of_mem_checkContent h).2
  · exact (isManual_of_mem_checkReached h).2
  · exact (isManual_of_mem_checkExits h).2
  · rw [checkErrorRoutes_eq] at h
    obtain ⟨i, node, -, hmem⟩ := mem_overNodes.1 h
    exact coherent_of_mem_errorFindings hmem

end Manual

theorem filterMap_fix_of_isManual {found : List Finding} (h : ∀ finding ∈ found, finding.IsManual) :
    found.filterMap Finding.fix = [] :=
  List.filterMap_eq_nil_iff.2 fun finding hmem => (h finding hmem).1

/-- The fixes are the edits proposed for the nodes, those for errors after the others. -/
theorem fixes_eq (policy : Policy) (nodes : List Node) :
    fixes policy nodes =
      overNodes (fun i node =>
          (nextEdits policy (Graph.numbers nodes) node
            ++ routeEdits policy (Graph.numbers nodes) node).map (Fix.mk i)) nodes
        ++ overNodes (fun i node =>
          (errorEdits policy (Graph.numbers nodes) node).map (Fix.mk i)) nodes := by
  have hreferences : ∀ i node,
      (referenceFindings policy (Graph.numbers nodes) i node).filterMap Finding.fix =
        (nextEdits policy (Graph.numbers nodes) node
          ++ routeEdits policy (Graph.numbers nodes) node).map (Fix.mk i) := by
    intro i node
    rw [referenceFindings, List.filterMap_append, List.filterMap_append, fix_nextFindings,
      fix_routeFindings, filterMap_fix_of_isManual fun _ => isManual_of_mem_choiceFindings,
      List.append_nil, List.map_append]
  rw [fixes, findings]
  simp only [List.filterMap_append]
  rw [filterMap_fix_of_isManual fun _ => isManual_of_mem_checkNumbers,
    filterMap_fix_of_isManual fun _ => isManual_of_mem_checkContent,
    filterMap_fix_of_isManual fun _ => isManual_of_mem_checkReached,
    filterMap_fix_of_isManual fun _ => isManual_of_mem_checkExits, checkReferences_eq,
    checkErrorRoutes_eq, filterMap_overNodes, filterMap_overNodes,
    overNodes_congr hreferences, overNodes_congr fun i node => fix_errorFindings _ _ i node,
    List.nil_append, List.append_nil, List.append_nil, List.append_nil]

/-- The fixes for the node at a position are the edits proposed for it. -/
theorem edit_fixes (policy : Policy) (nodes : List Node) (position : Nat) :
    ((fixes policy nodes).filter (·.position = position)).map Fix.edit =
      (nodes[position]?.map (edits policy (Graph.numbers nodes))).getD [] := by
  have hreferences := filter_overNodes_fix (fun node =>
    nextEdits policy (Graph.numbers nodes) node ++ routeEdits policy (Graph.numbers nodes) node)
    nodes 0 position
  have herrors := filter_overNodes_fix (errorEdits policy (Graph.numbers nodes)) nodes 0 position
  rw [if_pos (Nat.zero_le position), Nat.sub_zero] at hreferences herrors
  simp only [Nat.zero_add] at hreferences herrors
  rw [fixes_eq, List.filter_append, List.map_append, hreferences, herrors]
  cases nodes[position]? <;> rfl

theorem mem_fixes {policy : Policy} {nodes : List Node} {fix : Fix} :
    fix ∈ fixes policy nodes ↔ ∃ node, nodes[fix.position]? = some node ∧
      fix.edit ∈ edits policy (Graph.numbers nodes) node := by
  have hedit : fix ∈ fixes policy nodes ↔
      fix.edit ∈ ((fixes policy nodes).filter (·.position = fix.position)).map Fix.edit := by
    constructor
    · exact fun h => List.mem_map_of_mem (List.mem_filter.2 ⟨h, decide_eq_true rfl⟩)
    · intro h
      obtain ⟨other, hmem, hedit⟩ := List.mem_map.1 h
      rw [List.mem_filter, decide_eq_true_eq] at hmem
      cases fix
      cases other
      cases hedit
      cases hmem.2
      exact hmem.1
  rw [hedit, edit_fixes]
  cases nodes[fix.position]? <;> simp

/-- Nothing is fixed exactly if all nodes are settled. -/
theorem fixes_eq_nil_iff (policy : Policy) (nodes : List Node) :
    fixes policy nodes = [] ↔ ∀ node ∈ nodes, Settled policy (Graph.numbers nodes) node := by
  constructor
  · intro h node hnode
    obtain ⟨position, hposition⟩ := List.getElem?_of_mem hnode
    have hedits := edit_fixes policy nodes position
    rw [h, hposition] at hedits
    exact hedits.symm
  · intro h
    rw [List.eq_nil_iff_forall_not_mem]
    intro fix hfix
    obtain ⟨node, hnode, hedit⟩ := mem_fixes.1 hfix
    rw [h node (List.mem_of_getElem? hnode)] at hedit
    exact absurd hedit List.not_mem_nil

/-- Fixing a table mends its nodes. -/
theorem nodes_applyAll_fixes (policy : Policy) (table : Table) :
    (Fix.applyAll (fixes policy table.nodes) table).1.nodes =
      table.nodes.map (mend policy (Graph.numbers table.nodes)) := by
  apply List.ext_getElem?
  intro position
  rw [Fix.getElem?_nodes_applyAll, edit_fixes, List.getElem?_map]
  cases table.nodes[position]? <;> rfl

end DialogTable.Validation
