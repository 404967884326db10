import Mathlib.Data.List.Basic
import DialogTable.Proofs.Validation.Findings

/-!
# Fixing a table once and again

A fixed table is a fixed point: validating it again proposes nothing and changes nothing. Fixing
never brings a new problem either. What is found in the fixed table is, check by check, part of what
was left to the author before (`issues_sublist`), since the references of a node to known numbers
are kept and the edges between the nodes can only become more.
-/

namespace DialogTable.Validation

section Kept

variable (policy : Policy) (known : List Int)

/-! ### What mending keeps -/

theorem isEndpoint_mend (node : Node) :
    policy.isEndpoint (mend policy known node) = policy.isEndpoint node := by
  rw [mend_eq]
  rfl

theorem mem_mendedNextNodes {node : Node} {target : Int} (h : target ∈ node.nextNodes)
    (hknown : target ∈ known) : target ∈ mendedNextNodes policy known node := by
  have hexit : hasExit known node = true := List.any_eq_true.2 ⟨target, h, decide_eq_true hknown⟩
  rw [mendedNextNodes, if_pos hexit]
  exact List.mem_filter.2 ⟨h, decide_eq_true hknown⟩

theorem mem_mendedRoutes {node : Node} {route : Route} (h : route ∈ node.routes)
    (hknown : route.target ∈ known) : route ∈ mendedRoutes policy known node := by
  apply List.mem_append_left
  refine List.mem_map.2 ⟨route, h, ?_⟩
  rw [reroute?, if_pos hknown, Option.getD_none]

/-- A reference to a known number is kept. -/
theorem mem_references_mend {node : Node} {reference : Reference}
    (h : reference ∈ node.references) (hknown : reference.target ∈ known) :
    reference ∈ (mend policy known node).references := by
  rw [Node.references_eq, nextNodes_mend, routes_mend, choices_mend]
  rw [Node.references_eq] at h
  rcases List.mem_append.1 h with h | h
  · rcases List.mem_append.1 h with h | h
    · obtain ⟨target, hmem, rfl⟩ := List.mem_map.1 h
      exact List.mem_append_left _ (List.mem_append_left _
        (List.mem_map.2 ⟨target, mem_mendedNextNodes policy known hmem hknown, rfl⟩))
    · obtain ⟨route, hmem, rfl⟩ := List.mem_map.1 h
      exact List.mem_append_left _ (List.mem_append_right _
        (List.mem_map.2 ⟨route, mem_mendedRoutes policy known hmem hknown, rfl⟩))
  · exact List.mem_append_right _ h

end Kept

section Edges

variable (policy : Policy) (nodes : List Node)

/-- The nodes of a fixed table. -/
def mendAll : List Node :=
  nodes.map (mend policy (Graph.numbers nodes))

theorem numbers_mendAll : Graph.numbers (mendAll policy nodes) = Graph.numbers nodes :=
  Graph.numbers_map (number_mend policy (Graph.numbers nodes)) nodes

/-- Mending takes no edge away. -/
theorem mem_edges_mendAll {edge : Edge} (h : edge ∈ (Graph.ofNodes nodes).edges) :
    edge ∈ (Graph.ofNodes (mendAll policy nodes)).edges := by
  obtain ⟨node, hnode, reference, href, hknown, rfl⟩ := Graph.mem_edges.1 h
  refine Graph.mem_edges.2 ⟨mend policy (Graph.numbers nodes) node, List.mem_map_of_mem hnode,
    reference, mem_references_mend policy _ href hknown, ?_, ?_⟩
  · rw [numbers_mendAll]
    exact hknown
  · rw [number_mend]

theorem mem_edgesTo_mendAll {number : Int} {edge : Edge}
    (h : edge ∈ (Graph.ofNodes nodes).edgesTo number) :
    edge ∈ (Graph.ofNodes (mendAll policy nodes)).edgesTo number := by
  obtain ⟨hedge, htarget⟩ := Graph.mem_edgesTo.1 h
  exact Graph.mem_edgesTo.2 ⟨mem_edges_mendAll policy nodes hedge, htarget⟩

theorem outDegree_eq_zero_of_mendAll {number : Int}
    (h : (Graph.ofNodes (mendAll policy nodes)).outDegree number = 0) :
    (Graph.ofNodes nodes).outDegree number = 0 := by
  rw [Graph.outDegree_eq_zero_iff_forall] at h ⊢
  exact fun edge hedge => h edge (mem_edges_mendAll policy nodes hedge)

end Edges

/-! ### The checks, one by one -/

/-- The issue of a finding without a fix. -/
def Finding.manualIssue? (finding : Finding) : Option Issue :=
  if finding.fix.isNone then some finding.issue else none

theorem filterMap_manualIssue?_of_isManual {found : List Finding}
    (h : ∀ finding ∈ found, finding.IsManual) :
    found.filterMap Finding.manualIssue? = found.map Finding.issue := by
  rw [← List.filterMap_eq_map]
  apply List.filterMap_congr
  intro finding hmem
  rw [Finding.manualIssue?, (h finding hmem).1]
  rfl

theorem checkNumbers_mendAll (policy : Policy) (nodes : List Node) :
    checkNumbers (mendAll policy nodes) = checkNumbers nodes := by
  rw [checkNumbers, numbers_mendAll, checkNumbers]

theorem checkContent_mendAll (policy : Policy) (nodes : List Node) :
    checkContent (mendAll policy nodes) = checkContent nodes := by
  rw [checkContent, mendAll, List.filterMap_map, checkContent]
  apply List.filterMap_congr
  intro node _
  rw [Function.comp_apply, mend_eq]

theorem checkReached_sublist (policy : Policy) (nodes : List Node) :
    (checkReached (Graph.ofNodes (mendAll policy nodes))).Sublist
      (checkReached (Graph.ofNodes nodes)) := by
  have hnumbers : Graph.numbers (Graph.ofNodes (mendAll policy nodes)).nodes =
      Graph.numbers (Graph.ofNodes nodes).nodes := numbers_mendAll policy nodes
  rw [checkReached, checkReached, lowestNumber?, lowestNumber?, hnumbers]
  apply List.Sublist.map
  apply List.monotone_filter_right
  intro number h
  rw [Bool.and_eq_true, Bool.not_eq_true', Bool.not_eq_true', List.any_eq_false] at h ⊢
  exact ⟨h.1, fun edge hedge => h.2 edge (mem_edgesTo_mendAll policy nodes hedge)⟩

/-- Repeated elements are found alike before and after a map that keeps what they are compared
by. -/
theorem eraseDupsBy_map {α : Type} {r : α → α → Bool} {g : α → α}
    (h : ∀ a b, r (g a) (g b) = r a b) (l : List α) :
    (l.map g).eraseDupsBy r = (l.eraseDupsBy r).map g := by
  match l with
  | [] => rfl
  | a :: rest =>
    rw [List.map_cons, List.eraseDupsBy_cons, List.eraseDupsBy_cons, List.map_cons,
      List.filter_map, ← eraseDupsBy_map h]
    simp only [Function.comp_def, h]
termination_by l.length
decreasing_by exact Nat.lt_succ_of_le (List.length_filter_le _ _)

/-- The first decisions stay where numbers and kinds are kept. -/
theorem firstDecisions_map {g : Node → Node} (hnumber : ∀ node, (g node).number = node.number)
    (hkind : ∀ node, (g node).kind = node.kind) (nodes : List Node) :
    firstDecisions (nodes.map g) = (firstDecisions nodes).map g := by
  have hdecision : ((fun node : Node => decide (node.kind = .decision)) ∘ g) =
      fun node => decide (node.kind = .decision) := by
    funext node
    rw [Function.comp_apply, hkind]
  rw [firstDecisions, List.filter_map, hdecision, eraseDupsBy_map, firstDecisions]
  intro a b
  rw [hnumber, hnumber]

theorem checkExits_sublist (policy : Policy) (nodes : List Node) :
    (checkExits policy (Graph.ofNodes (mendAll policy nodes))).Sublist
      (checkExits policy (Graph.ofNodes nodes)) := by
  have hfirst : firstDecisions (Graph.ofNodes (mendAll policy nodes)).nodes =
      (firstDecisions nodes).map (mend policy (Graph.numbers nodes)) :=
    firstDecisions_map (number_mend policy _) (kind_mend policy _) nodes
  rw [checkExits, hfirst, List.filter_map, List.map_map, checkExits]
  have hissue : ∀ message : String,
      ((fun node : Node => Finding.manual node.number .nextNodes message) ∘
        mend policy (Graph.numbers nodes)) =
          fun node => Finding.manual node.number .nextNodes message := by
    intro message
    funext node
    rw [Function.comp_apply, number_mend]
  rw [hissue]
  apply List.Sublist.map
  apply List.monotone_filter_right
  intro node h
  rw [Function.comp_apply, Bool.and_eq_true, decide_eq_true_eq, number_mend, isEndpoint_mend] at h
  rw [Bool.and_eq_true, decide_eq_true_eq]
  exact ⟨outDegree_eq_zero_of_mendAll policy nodes h.1, h.2⟩

/-! ### The findings at a mended node -/

section Node

variable (policy : Policy) {known : List Int} (position : Nat) (node : Node)

theorem danglingFinding_mend (repoint : Bool) (reference : Reference) :
    danglingFinding policy known position (mend policy known node) repoint reference =
      danglingFinding policy known position node repoint reference := by
  rw [danglingFinding, danglingFinding, number_mend]

theorem nextFindings_sublist :
    ((nextFindings policy known position (mend policy known node)).map Finding.issue).Sublist
      ((nextFindings policy known position node).filterMap Finding.manualIssue?) := by
  by_cases h : ¬ Alone known node.number ∨ hasExit known node = true
  · rw [nextFindings, strayNextNodes_mend policy h]
    exact List.nil_sublist _
  · rw [not_or, not_not, Bool.not_eq_true] at h
    obtain ⟨halone, hexit⟩ := h
    have hexit' := hasExit_mend_of_alone policy halone hexit
    rw [nextFindings, nextFindings, strayNextNodes_of_not_hasExit _ _ hexit',
      strayNextNodes_of_not_hasExit _ _ hexit, nextNodes_mend_of_alone policy halone hexit, hexit,
      hexit']
    cases node.nextNodes with
    | nil => exact List.nil_sublist _
    | cons first later =>
      have hmanual : (danglingFinding policy known position node true
          (nextReference first)).manualIssue? =
            some (danglingFinding policy known position node true (nextReference first)).issue := by
        have hfix : (danglingFinding policy known position node true (nextReference first)).fix =
            (policy.target? known node.number first).map fun newTarget =>
              { position, edit := .repointNextNode first newTarget } := rfl
        rw [Finding.manualIssue?, hfix, target?_of_alone policy halone]
        rfl
      dsimp only [List.take_succ_cons, List.take_zero]
      rw [Bool.not_false, danglingFinding_mend, List.filterMap_cons_some hmanual]
      exact (List.nil_sublist _).cons_cons _

theorem routeFindings_sublist :
    ((routeFindings policy known position (mend policy known node)).map Finding.issue).Sublist
      ((routeFindings policy known position node).filterMap Finding.manualIssue?) := by
  by_cases halone : Alone known node.number
  · have hstray : strayRoutes known (mend policy known node) = strayRoutes known node := by
      rw [strayRoutes, routes_mend_of_alone policy halone, strayRoutes]
    have hsame : routeFindings policy known position (mend policy known node) =
        routeFindings policy known position node := by
      rw [routeFindings, hstray, routeFindings]
      exact List.map_congr_left fun route _ => danglingFinding_mend policy position node false _
    rw [hsame, filterMap_manualIssue?_of_isManual]
    intro finding hmem
    obtain ⟨route, -, rfl⟩ := List.mem_map.1 hmem
    refine ⟨?_, coherent_danglingFinding _ _ _ _ _ _⟩
    have hfix : (danglingFinding policy known position node false (routeReference route)).fix =
        (policy.target? known node.number route.target).map fun newTarget =>
          { position, edit := .repointRoute route.label route.target newTarget } := rfl
    rw [hfix, target?_of_alone policy halone, Option.map_none]
  · rw [routeFindings, strayRoutes_mend policy halone]
    exact List.nil_sublist _

theorem choiceFindings_mend :
    (choiceFindings policy known position (mend policy known node)).map Finding.issue =
      (choiceFindings policy known position node).filterMap Finding.manualIssue? := by
  have hsame : choiceFindings policy known position (mend policy known node) =
      choiceFindings policy known position node := by
    rw [choiceFindings, strayChoices, choices_mend, choiceFindings, strayChoices]
    exact List.map_congr_left fun reference _ =>
      danglingFinding_mend policy position node false reference
  rw [hsame, filterMap_manualIssue?_of_isManual fun _ => isManual_of_mem_choiceFindings]

theorem errorFindings_sublist :
    ((errorFindings policy known position (mend policy known node)).map Finding.issue).Sublist
      ((errorFindings policy known position node).filterMap Finding.manualIssue?) := by
  rw [errorFindings, errorFindings]
  split
  · next hlacks =>
    rw [if_pos (lacksErrorRoute_of_mend policy hlacks), number_mend,
      target?_of_alone policy (alone_of_lacksErrorRoute_mend policy hlacks)]
    exact List.Sublist.refl _
  · exact List.nil_sublist _

theorem referenceFindings_sublist :
    ((referenceFindings policy known position (mend policy known node)).map
        Finding.issue).Sublist
      ((referenceFindings policy known position node).filterMap Finding.manualIssue?) := by
  rw [referenceFindings, referenceFindings, List.map_append, List.map_append,
    List.filterMap_append, List.filterMap_append, choiceFindings_mend]
  exact ((nextFindings_sublist policy position node).append
    (routeFindings_sublist policy position node)).append (List.Sublist.refl _)

end Node

/-! ### The findings of a fixed table -/

/-- What is found in a fixed table is part of what was left to the author before. -/
theorem issues_sublist (policy : Policy) (nodes : List Node) :
    (issues policy (mendAll policy nodes)).Sublist
      ((findings policy nodes).filterMap Finding.manualIssue?) := by
  have hreferences : ((checkReferences policy (Graph.ofNodes (mendAll policy nodes))).map
      Finding.issue).Sublist
        ((checkReferences policy (Graph.ofNodes nodes)).filterMap Finding.manualIssue?) := by
    rw [checkReferences_eq, checkReferences_eq, numbers_mendAll, mendAll, overNodes_map,
      map_overNodes, filterMap_overNodes]
    apply overNodes_sublist
    intro position node _
    exact referenceFindings_sublist policy position node
  have herrors : ((checkErrorRoutes policy (mendAll policy nodes)).map Finding.issue).Sublist
      ((checkErrorRoutes policy nodes).filterMap Finding.manualIssue?) := by
    rw [checkErrorRoutes_eq, checkErrorRoutes_eq, numbers_mendAll, mendAll, overNodes_map,
      map_overNodes, filterMap_overNodes]
    apply overNodes_sublist
    intro position node _
    exact errorFindings_sublist policy position node
  rw [issues, findings, findings]
  simp only [List.map_append, List.filterMap_append]
  rw [filterMap_manualIssue?_of_isManual fun _ => isManual_of_mem_checkNumbers,
    filterMap_manualIssue?_of_isManual fun _ => isManual_of_mem_checkContent,
    filterMap_manualIssue?_of_isManual fun _ => isManual_of_mem_checkReached,
    filterMap_manualIssue?_of_isManual fun _ => isManual_of_mem_checkExits,
    checkNumbers_mendAll, checkContent_mendAll]
  exact (((((List.Sublist.refl _).append hreferences).append (List.Sublist.refl _)).append
    ((checkReached_sublist policy nodes).map Finding.issue)).append
      ((checkExits_sublist policy nodes).map Finding.issue)).append herrors

/-! ### Validating again -/

section Report

variable (policy : Policy) (table : Table)

theorem issues_validateTable (fix : Bool) :
    (validateTable policy fix table).1.issues = issues policy table.nodes := by
  cases fix <;> rfl

theorem manualIssues_validateTable (fix : Bool) :
    (validateTable policy fix table).1.manualIssues =
      (findings policy table.nodes).filterMap Finding.manualIssue? := by
  rw [Report.manualIssues, issues_validateTable, issues, List.filter_map, ← List.filterMap_eq_map,
    List.filterMap_filter]
  apply List.filterMap_congr
  intro finding hmem
  have hcoherent : finding.issue.fixable = finding.fix.isSome := coherent_of_mem_findings hmem
  rw [Finding.manualIssue?, Function.comp_apply, hcoherent]
  cases finding.fix <;> rfl

/-- The fixable issues are those of the findings with a fix. -/
theorem fixableCount_validateTable (fix : Bool) :
    (validateTable policy fix table).1.fixableCount = (fixes policy table.nodes).length := by
  rw [Report.fixableCount, issues_validateTable, issues, List.countP_map, fixes,
    List.length_filterMap_eq_countP]
  apply List.countP_congr
  intro finding hmem
  have hcoherent : finding.issue.fixable = finding.fix.isSome := coherent_of_mem_findings hmem
  rw [Function.comp_apply, hcoherent]

theorem validateTable_true :
    validateTable policy true table =
      ({ issues := issues policy table.nodes
         fixedText := some (Fix.applyAll (fixes policy table.nodes) table).1.toText
         appliedFixes := (Fix.applyAll (fixes policy table.nodes) table).2 },
        (Fix.applyAll (fixes policy table.nodes) table).1) := rfl

theorem validateTable_of_fixes_eq_nil (h : fixes policy table.nodes = []) :
    validateTable policy true table =
      ({ issues := issues policy table.nodes, fixedText := some table.toText }, table) := by
  rw [validateTable_true, h]
  rfl

theorem nodes_validateTable :
    (validateTable policy true table).2.nodes = mendAll policy table.nodes :=
  nodes_applyAll_fixes policy table

theorem fixes_mendAll (nodes : List Node) : fixes policy (mendAll policy nodes) = [] := by
  rw [fixes_eq_nil_iff, numbers_mendAll]
  intro node hnode
  obtain ⟨old, -, rfl⟩ := List.mem_map.1 hnode
  exact settled_mend policy

/-- One pass is enough: a second one finds nothing to fix and changes nothing, and all that it finds
was left to the author by the first. -/
theorem validateTable_twice (policy : Policy) (table : Table) :
    let first := validateTable policy true table
    let second := validateTable policy true first.2
    second.1.fixableCount = 0 ∧ second.1.appliedFixes = [] ∧ second.2 = first.2 ∧
      second.1.issues.Sublist first.1.manualIssues := by
  intro first second
  have hnodes : first.2.nodes = mendAll policy table.nodes := nodes_validateTable policy table
  have hfixes : fixes policy first.2.nodes = [] := by
    rw [hnodes, fixes_mendAll]
  have hsecond : second =
      ({ issues := issues policy first.2.nodes, fixedText := some first.2.toText }, first.2) :=
    validateTable_of_fixes_eq_nil policy first.2 hfixes
  have hcount : second.1.fixableCount = 0 := by
    rw [fixableCount_validateTable, hfixes, List.length_nil]
  refine ⟨hcount, ?_, ?_, ?_⟩
  · rw [hsecond]
  · rw [hsecond]
  · rw [manualIssues_validateTable, issues_validateTable, hnodes]
    exact issues_sublist policy table.nodes

end Report

end DialogTable.Validation
