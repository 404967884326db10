import DialogTable.Proofs.Validation.Findings

/-!
# What becomes of references

The graph and the checks decide each for itself which references lead to a node. They agree: walking
through the references of all nodes in order, those to known numbers are the edges of the graph, and
the others are the issues about missing nodes, one issue a reference and in the same order. So no
declared branch disappears without notice (`edges_and_missing_targets`).

In a list of issues those about missing nodes are told from the others by the first words of their
messages.
-/

namespace DialogTable

/-- The column that a reference is declared in. -/
def Origin.column : Origin → Column
  | nextNode => .nextNodes
  | route => .whatNext
  | choice => .richContent

namespace Validation

/-! ### Messages -/

/-- How a message about a missing node begins. -/
def missingOpenings : List String :=
  ["Next node ", "Route '", "Option '"]

/-- How any other message begins. -/
def otherOpenings : List String :=
  ["Node ", "Decision node ", "Action node "]

namespace Issue

/-- Whether an issue is about a reference to a missing node. -/
def tellsOfMissing (issue : Issue) : Bool :=
  missingOpenings.any fun opening => opening.toList.isPrefixOf issue.message.toList

/-- What an issue says, and where. -/
def notice (issue : Issue) : Int × Column × String :=
  (issue.node, issue.column, issue.message)

end Issue

/-- The message about a reference to a missing node. -/
def missingMessage (reference : Edge) : String :=
  let label := reference.label.getD ""
  match reference.origin with
  | .nextNode => s!"Next node {reference.target} does not exist"
  | .route => s!"Route '{label}' points to missing node {reference.target}"
  | .choice => s!"Option '{label}' points to missing node {reference.target}"

/-- What is to be said of a reference to a missing node, and where. -/
def missingNotice (reference : Edge) : Int × Column × String :=
  (reference.source, reference.origin.column, missingMessage reference)

/-- A text that goes on begins as before. -/
theorem prefix_append {opening text : String} (h : opening.toList <+: text.toList) (more : String) :
    opening.toList <+: (text ++ more).toList := by
  rw [String.toList_append]
  exact h.trans (List.prefix_append _ _)

theorem exists_prefix_missingMessage (reference : Edge) :
    ∃ opening ∈ missingOpenings, opening.toList <+: (missingMessage reference).toList := by
  rw [missingMessage]
  cases reference.origin with
  | nextNode =>
    refine ⟨"Next node ", by decide, ?_⟩
    exact prefix_append (prefix_append (List.prefix_refl _) _) _
  | route =>
    refine ⟨"Route '", by decide, ?_⟩
    exact prefix_append (prefix_append (prefix_append (List.prefix_refl _) _) _) _
  | choice =>
    refine ⟨"Option '", by decide, ?_⟩
    exact prefix_append (prefix_append (prefix_append (List.prefix_refl _) _) _) _

/-- The openings tell the messages apart, since none of the one kind begins like one of the
other. -/
theorem tellsOfMissing_ofFix (other : String) {message : String} (ho : other ∈ otherOpenings)
    (h : other.toList <+: message.toList) (fix : Option Fix) (node : Int) (column : Column) :
    (Finding.ofFix fix node column message).issue.tellsOfMissing = false := by
  have hapart : ∀ other ∈ otherOpenings, ∀ opening ∈ missingOpenings,
      ¬ (opening.toList <+: other.toList ∨ other.toList <+: opening.toList) := by
    decide +kernel
  rw [Issue.tellsOfMissing, List.any_eq_false]
  intro opening hopening hprefix
  exact hapart other ho opening hopening
    (List.prefix_or_prefix_of_prefix (List.isPrefixOf_iff_prefix.1 hprefix) h)

/-! ### Issues about missing nodes -/

theorem notice_danglingFinding (policy : Policy) (known : List Int) (position : Nat) (node : Node)
    (repoint : Bool) (reference : Reference) :
    (danglingFinding policy known position node repoint reference).issue.notice =
      missingNotice (Graph.edgeOf node.number reference) := by
  rw [danglingFinding, missingNotice, missingMessage, Graph.edgeOf]
  cases reference.origin <;> rfl

theorem tellsOfMissing_danglingFinding (policy : Policy) (known : List Int) (position : Nat)
    (node : Node) (repoint : Bool) (reference : Reference) :
    (danglingFinding policy known position node repoint reference).issue.tellsOfMissing = true := by
  obtain ⟨opening, hopening, hprefix⟩ :=
    exists_prefix_missingMessage (Graph.edgeOf node.number reference)
  have hmessage := congrArg (fun notice => notice.2.2)
    (notice_danglingFinding policy known position node repoint reference)
  refine List.any_eq_true.2 ⟨opening, hopening, List.isPrefixOf_iff_prefix.2 ?_⟩
  rw [← show _ = missingMessage _ from hmessage] at hprefix
  exact hprefix

/-- The findings of the other checks. -/
def otherFindings (policy : Policy) (nodes : List Node) : List Finding :=
  checkNumbers nodes ++ checkContent nodes ++ checkReached (Graph.ofNodes nodes)
    ++ checkExits policy (Graph.ofNodes nodes) ++ checkErrorRoutes policy nodes

theorem tellsOfMissing_of_mem_checkReferences {policy : Policy} {nodes : List Node}
    {finding : Finding} (h : finding ∈ checkReferences policy (Graph.ofNodes nodes)) :
    finding.issue.tellsOfMissing = true := by
  obtain ⟨part, hpart, hmem⟩ := List.mem_flatten.1 h
  obtain ⟨position, hposition, rfl⟩ := List.mem_mapIdx.1 hpart
  obtain ⟨i, hi, rfl⟩ := List.mem_mapIdx.1 hmem
  exact tellsOfMissing_danglingFinding _ _ _ _ _ _

theorem tellsOfMissing_of_mem_otherFindings {policy : Policy} {nodes : List Node}
    {finding : Finding} (h : finding ∈ otherFindings policy nodes) :
    finding.issue.tellsOfMissing = false := by
  simp only [otherFindings, List.mem_append] at h
  rcases h with (((h | h) | h) | h) | h
  · obtain ⟨number, -, rfl⟩ := List.mem_map.1 h
    apply tellsOfMissing_ofFix "Node " (by decide)
    exact prefix_append (prefix_append (by decide +kernel) _) _
  · obtain ⟨node, -, hfinding⟩ := List.mem_filterMap.1 h
    split at hfinding
    · split at hfinding
      · rw [← Option.some.inj hfinding]
        exact tellsOfMissing_ofFix "Decision node " (by decide) (by decide +kernel) _ _ _
      · cases hfinding
    · split at hfinding
      · rw [← Option.some.inj hfinding]
        exact tellsOfMissing_ofFix "Action node " (by decide) (by decide +kernel) _ _ _
      · cases hfinding
  · obtain ⟨number, -, rfl⟩ := List.mem_map.1 h
    apply tellsOfMissing_ofFix "Node " (by decide)
    exact prefix_append (prefix_append (List.prefix_refl _) _) _
  · obtain ⟨node, -, rfl⟩ := List.mem_map.1 h
    exact tellsOfMissing_ofFix "Decision node " (by decide) (by decide +kernel) _ _ _
  · rw [checkErrorRoutes_eq] at h
    obtain ⟨position, node, -, hmem⟩ := mem_overNodes.1 h
    rw [errorFindings] at hmem
    split at hmem
    · rw [List.mem_singleton.1 hmem]
      exact tellsOfMissing_ofFix "Action node " (by decide) (by decide +kernel) _ _ _
    · exact absurd hmem List.not_mem_nil

/-- The issues about missing nodes are those of one check. -/
theorem filter_tellsOfMissing_issues (policy : Policy) (nodes : List Node) :
    (issues policy nodes).filter Issue.tellsOfMissing =
      (checkReferences policy (Graph.ofNodes nodes)).map Finding.issue := by
  have hnone : ∀ found ⊆ otherFindings policy nodes,
      found.filter (Issue.tellsOfMissing ∘ Finding.issue) = [] := by
    intro found hsub
    exact List.filter_eq_nil_iff.2 fun finding hmem =>
      Bool.eq_false_iff.1 (tellsOfMissing_of_mem_otherFindings (hsub hmem))
  have hall : (checkReferences policy (Graph.ofNodes nodes)).filter
      (Issue.tellsOfMissing ∘ Finding.issue) = checkReferences policy (Graph.ofNodes nodes) :=
    List.filter_eq_self.2 fun _ hmem => tellsOfMissing_of_mem_checkReferences hmem
  rw [issues, List.filter_map, findings]
  simp only [List.filter_append]
  rw [hall, hnone (checkNumbers nodes), hnone (checkContent nodes), hnone (checkReached _),
    hnone (checkExits _ _), hnone (checkErrorRoutes _ _)]
  · rw [List.nil_append, List.append_nil, List.append_nil, List.append_nil, List.append_nil]
  all_goals
    intro finding hmem
    simp only [otherFindings, List.mem_append, hmem, true_or, or_true]

/-- Each reference to a missing node is noted, in the order of declaration. -/
theorem map_notice_checkReferences (policy : Policy) (nodes : List Node) :
    (checkReferences policy (Graph.ofNodes nodes)).map (Issue.notice ∘ Finding.issue) =
      ((Graph.declared nodes).filter (·.target ∉ Graph.numbers nodes)).map missingNotice := by
  have hnode : ∀ position node,
      (referenceFindings policy (Graph.numbers nodes) position node).map
          (Issue.notice ∘ Finding.issue) =
        ((node.references.map (Graph.edgeOf node.number)).filter
          (·.target ∉ Graph.numbers nodes)).map missingNotice := by
    intro position node
    have hnotice : ∀ i reference,
        (Issue.notice ∘ Finding.issue) (danglingFinding policy (Graph.numbers nodes) position node
          (i == 0 && !hasExit (Graph.numbers nodes) node) reference) =
            missingNotice (Graph.edgeOf node.number reference) :=
      fun i reference => notice_danglingFinding _ _ _ _ _ _
    rw [← mapIdx_strayReferences, map_mapIdx, mapIdx_of_forall_eq hnotice, List.filter_map,
      List.map_map]
    simp only [decide_not]
    rfl
  rw [checkReferences_eq, map_overNodes, overNodes_eq_flatMap hnode, Graph.declared,
    List.filter_flatMap, List.map_flatMap]

/-- **No declared branch disappears without notice.** Of the references of all nodes, in the order
of declaration, those to known numbers are the edges of the graph, with their source, target, origin
and full label. The others are the issues about missing nodes, each noted at the node and the column
that declares it. There are as many edges and such issues together as there are references. -/
theorem edges_and_missing_targets (policy : Policy) (nodes : List Node) :
    let missing := (issues policy nodes).filter Issue.tellsOfMissing
    (Graph.ofNodes nodes).edges =
        (Graph.declared nodes).filter (·.target ∈ Graph.numbers nodes) ∧
      missing.map Issue.notice =
        ((Graph.declared nodes).filter (·.target ∉ Graph.numbers nodes)).map missingNotice ∧
      (Graph.ofNodes nodes).edges.length + missing.length = (Graph.declared nodes).length := by
  intro missing
  have hedges := Graph.edges_ofNodes nodes
  have hmissing : missing.map Issue.notice =
      ((Graph.declared nodes).filter (·.target ∉ Graph.numbers nodes)).map missingNotice := by
    rw [← map_notice_checkReferences policy nodes, ← List.map_map, ← filter_tellsOfMissing_issues]
  refine ⟨hedges, hmissing, ?_⟩
  have hlength := congrArg List.length hmissing
  rw [List.length_map, List.length_map] at hlength
  rw [hedges, hlength]
  simp only [decide_not]
  exact (List.length_eq_length_filter_add _).symm

end Validation

end DialogTable
