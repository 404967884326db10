import DialogTable.Proofs.Table.Rewriting
import DialogTable.Proofs.Validation.FixedPoint

/-!
# Fixing the fixed text again

The fixed table is a fixed point, but what is kept of it is its text. The text is a fixed point too
exactly when no written line ends in a carriage return and what is read back of the rows that were
written anew still needs no fix. This holds in particular where the texts of those rows can all be
written so that they read back.
-/

namespace DialogTable.Validation

/-- Validating the fixed text finds nothing to fix and gives the same text again. -/
def StaysFixed (policy : Policy) (text : String) : Prop :=
  ∃ fixedText, (validate policy true text).fixedText = some fixedText ∧
    (validate policy true fixedText).fixableCount = 0 ∧
    (validate policy true fixedText).appliedFixes = [] ∧
    (validate policy true fixedText).fixedText = some fixedText

/-- The table that a text holds, after its fixes. -/
def fixedTable (policy : Policy) (text : String) : Table :=
  (validateTable policy true (Table.ofText text)).2

/-! ### The fixed table -/

section Targets

variable {policy : Policy} {known : List Int} {node : Node} {edit : Edit} {target : Int}

theorem mem_of_mem_nextEdits (h : edit ∈ nextEdits policy known node)
    (ht : edit.newTarget? = some target) : target ∈ known := by
  have hdrop : ∀ n, edit ≠ .dropNextNode n := by
    rintro n rfl
    cases ht
  rw [nextEdits] at h
  split at h
  · exact absurd h List.not_mem_nil
  · rcases List.mem_append.1 h with h | h
    · split at h
      · exact absurd (List.mem_singleton.1 h) (hdrop _)
      · obtain ⟨newTarget, hnew, rfl⟩ := Option.map_eq_some_iff.1 (Option.mem_toList.1 h)
        rw [← Option.some.inj ht]
        exact Policy.mem_of_target? hnew
    · obtain ⟨n, -, rfl⟩ := List.mem_map.1 h
      exact absurd rfl (hdrop n)

theorem mem_of_mem_routeEdits (h : edit ∈ routeEdits policy known node)
    (ht : edit.newTarget? = some target) : target ∈ known := by
  obtain ⟨route, -, hedit⟩ := List.mem_filterMap.1 h
  obtain ⟨newTarget, hnew, rfl⟩ := Option.map_eq_some_iff.1 hedit
  rw [← Option.some.inj ht]
  exact Policy.mem_of_target? hnew

theorem mem_of_mem_errorEdits (h : edit ∈ errorEdits policy known node)
    (ht : edit.newTarget? = some target) : target ∈ known := by
  rw [errorEdits] at h
  split at h
  · obtain ⟨newTarget, hnew, rfl⟩ := Option.map_eq_some_iff.1 (Option.mem_toList.1 h)
    rw [← Option.some.inj ht]
    exact Policy.mem_of_target? hnew
  · exact absurd h List.not_mem_nil

/-- Proposed fixes lead to known numbers. -/
theorem newTarget_mem_of_mem_fixes {nodes : List Node} {fix : Fix} (h : fix ∈ fixes policy nodes)
    (ht : fix.edit.newTarget? = some target) : target ∈ Graph.numbers nodes := by
  obtain ⟨node, -, hmem⟩ := mem_fixes.1 h
  rw [edits, List.mem_append, List.mem_append] at hmem
  rcases hmem with (hmem | hmem) | hmem
  · exact mem_of_mem_nextEdits hmem ht
  · exact mem_of_mem_routeEdits hmem ht
  · exact mem_of_mem_errorEdits hmem ht

end Targets

/-- Fixing is an edit of the table. -/
theorem edits_validateTable (policy : Policy) {table : Table} (h : table.Faithful) :
    Table.Edits table (validateTable policy true table).2 := by
  rw [validateTable_true]
  apply Fix.edits_applyAll h
  intro fix hfix target ht
  obtain ⟨node, hnode, rfl⟩ := List.mem_map.1 (newTarget_mem_of_mem_fixes hfix ht)
  exact (h.regular hnode).number_inRange

theorem number_reread (node : Node) : node.reread.number = node.number := by
  rw [Node.reread]
  split
  · rfl
  · exact node.number_readBack

/-- Reading the text of a faithful table, fixing and writing it gives the same text without a fix
exactly if the lines are found again and the nodes that are read need no fix. -/
theorem validate_toText_iff (policy : Policy) {table : Table} (h : table.Faithful) :
    ((validate policy true table.toText).fixableCount = 0 ∧
      (validate policy true table.toText).appliedFixes = [] ∧
      (validate policy true table.toText).fixedText = some table.toText) ↔
    table.NoReturns ∧
      ∀ node ∈ table.nodes, Settled policy (Graph.numbers table.nodes) node.reread := by
  have hsettled : table.NoReturns → (fixes policy (Table.ofText table.toText).nodes = [] ↔
      ∀ node ∈ table.nodes, Settled policy (Graph.numbers table.nodes) node.reread) := by
    intro hr
    rw [Table.nodes_ofText_toText h hr, fixes_eq_nil_iff, Graph.numbers_map number_reread]
    exact List.forall_mem_map
  rw [validate, fixableCount_validateTable, List.length_eq_zero_iff]
  constructor
  · rintro ⟨hfixes, -, htext⟩
    rw [validateTable_of_fixes_eq_nil _ _ hfixes, Option.some.injEq] at htext
    have hr : table.NoReturns := (Table.toText_ofText_toText_iff h).1 htext
    exact ⟨hr, (hsettled hr).1 hfixes⟩
  · rintro ⟨hr, hnodes⟩
    have hfixes := (hsettled hr).2 hnodes
    rw [validateTable_of_fixes_eq_nil _ _ hfixes]
    exact ⟨hfixes, rfl, congrArg some ((Table.toText_ofText_toText_iff h).2 hr)⟩

/-! ### Nodes that read back -/

/-- The proposed edits depend on the data of a node only. -/
theorem settled_of_sameData {policy : Policy} {known : List Int} {a b : Node} (h : a.SameData b)
    (ha : Settled policy known a) : Settled policy known b := by
  have hlacks : LacksErrorRoute a ↔ LacksErrorRoute b := by
    rw [LacksErrorRoute, LacksErrorRoute, h.kind, h.command, h.routes]
  have hnext : nextEdits policy known b = nextEdits policy known a := by
    rw [nextEdits, strayNextNodes, hasExit, ← h.nextNodes, ← h.number]
    rfl
  have hroute : routeEdits policy known b = routeEdits policy known a := by
    rw [routeEdits, strayRoutes, ← h.routes, ← h.number]
    rfl
  have herror : errorEdits policy known b = errorEdits policy known a := by
    rw [errorEdits, errorEdits, h.number]
    exact if_congr hlacks.symm rfl rfl
  rw [Settled, edits, hnext, hroute, herror]
  exact ha

theorem oneLine_mend (policy : Policy) (known : List Int) {node : Node} (h : node.OneLine) :
    (mend policy known node).OneLine := by
  intro column c hc
  rcases mem_columnText_mend policy known node hc with hc | hmark | hlabel
  · exact h column c hc
  · exact Node.ne_lineBreak_of_isMark hmark
  · have hone : Cell.OneLine errorLabel.toList := by decide +kernel
    exact hone c hlabel

theorem issues_validate (policy : Policy) (fix : Bool) (text : String) :
    (validate policy fix text).issues = issues policy (Table.ofText text).nodes := by
  rw [validate, issues_validateTable]

theorem fixedText_validate (policy : Policy) (text : String) :
    (validate policy true text).fixedText = some (fixedTable policy text).toText := by
  rw [validate, fixedTable, validateTable_true]

theorem staysFixed_iff_validate (policy : Policy) (text : String) :
    StaysFixed policy text ↔
      (validate policy true (fixedTable policy text).toText).fixableCount = 0 ∧
      (validate policy true (fixedTable policy text).toText).appliedFixes = [] ∧
      (validate policy true (fixedTable policy text).toText).fixedText =
        some (fixedTable policy text).toText := by
  rw [StaysFixed, fixedText_validate]
  constructor
  · rintro ⟨fixedText, htext, hrest⟩
    rw [Option.some.inj htext]
    exact hrest
  · exact fun hrest => ⟨_, rfl, hrest⟩

section FixedTable

variable (policy : Policy) (text : String)

theorem edits_fixedTable : Table.Edits (Table.ofText text) (fixedTable policy text) :=
  edits_validateTable policy (Table.faithful_ofText text)

theorem faithful_fixedTable : (fixedTable policy text).Faithful :=
  (edits_fixedTable policy text).faithful (Table.faithful_ofText text)

theorem nodes_fixedTable :
    (fixedTable policy text).nodes = mendAll policy (Table.ofText text).nodes :=
  nodes_validateTable policy (Table.ofText text)

theorem settled_fixedTable :
    ∀ node ∈ (fixedTable policy text).nodes,
      Settled policy (Graph.numbers (fixedTable policy text).nodes) node := by
  rw [← fixes_eq_nil_iff, nodes_fixedTable, fixes_mendAll]

theorem oneLine_of_mem_fixedTable (h : '\r' ∉ text.toList) {node : Node}
    (hnode : node ∈ (fixedTable policy text).nodes) : node.OneLine := by
  rw [nodes_fixedTable] at hnode
  obtain ⟨old, hold, rfl⟩ := List.mem_map.1 hnode
  exact oneLine_mend policy _ (Table.oneLine_of_mem_nodes_ofText h hold)

theorem noReturns_fixedTable (h : '\r' ∉ text.toList) : (fixedTable policy text).NoReturns :=
  Table.noReturns_of_oneLine fun _ hl =>
    (edits_fixedTable policy text).oneLine_of_mem_writtenLines
      (Table.oneLine_of_mem_writtenLines_ofText h) hl

/-- A pristine node of the fixed table needs no fix, so that only the others matter. -/
theorem settled_reread_iff :
    (∀ node ∈ (fixedTable policy text).nodes,
      Settled policy (Graph.numbers (fixedTable policy text).nodes) node.reread) ↔
    ∀ node ∈ (fixedTable policy text).nodes, node.line = none →
      Settled policy (Graph.numbers (fixedTable policy text).nodes) node.readBack := by
  constructor
  · intro h node hnode hline
    rw [← Node.reread_of_line_none hline]
    exact h node hnode
  · intro h node hnode
    cases hline : node.line with
    | none =>
      rw [Node.reread_of_line_none hline]
      exact h node hnode hline
    | some line =>
      rw [Node.reread_of_line_some hline]
      exact settled_fixedTable policy text node hnode

theorem staysFixed_iff_settled :
    StaysFixed policy text ↔ (fixedTable policy text).NoReturns ∧
      ∀ node ∈ (fixedTable policy text).nodes, node.line = none →
        Settled policy (Graph.numbers (fixedTable policy text).nodes) node.readBack := by
  rw [staysFixed_iff_validate, validate_toText_iff policy (faithful_fixedTable policy text),
    settled_reread_iff]

/-- The text of a fixed table stays fixed exactly if its lines are found again and the rows that
were written anew are read as nodes that need no fix. It does so if the text that was given has no
carriage return and these rows can be written so that they read back. -/
theorem staysFixed_iff :
    (StaysFixed policy text ↔ (fixedTable policy text).NoReturns ∧
      ∀ node ∈ (fixedTable policy text).nodes, node.line = none →
        Settled policy (Graph.numbers (fixedTable policy text).nodes) node.readBack) ∧
    ('\r' ∉ text.toList →
      (∀ node ∈ (fixedTable policy text).nodes, node.line = none → node.Rewritable) →
      StaysFixed policy text) := by
  refine ⟨staysFixed_iff_settled policy text, fun hreturn hrewritable => ?_⟩
  rw [staysFixed_iff_settled]
  refine ⟨noReturns_fixedTable policy text hreturn, fun node hnode hline => ?_⟩
  have hregular : node.Regular := (faithful_fixedTable policy text).regular hnode
  have hone : node.OneLine := oneLine_of_mem_fixedTable policy text hreturn hnode
  exact settled_of_sameData (Node.sameData_readBack hregular hone (hrewritable node hnode hline))
    (settled_fixedTable policy text node hnode)

end FixedTable

theorem staysFixed_errorRoute : StaysFixed {} "h\n5,A,n,,,,,,,,,,,Cmd\n99990,D,end,,,,,,bye\n" := by
  apply (staysFixed_iff {} _).2
  · decide +kernel
  · rw [nodes_fixedTable]
    decide +kernel

/-- A second carriage return before the line feed is taken off by the second pass. A quote in the
description of an action hides the route for errors that the first pass added. -/
theorem not_staysFixed :
    ¬ StaysFixed {} "h\r\r\n" ∧
    ¬ StaysFixed {}
      "h\n5,A,n,,,,,,,,,,,Cmd,\"a\"b,,,,,,,,,,,\n99990,D,end,,,,,,bye\n" := by
  constructor
  · rw [staysFixed_iff_settled]
    rintro ⟨hreturns, -⟩
    have hlast : "h\r".toList.getLast? ≠ some '\r' :=
      hreturns "h\r" (by decide +kernel)
    exact absurd hlast (by decide)
  · rw [staysFixed_iff_settled, nodes_fixedTable]
    rintro ⟨-, hsettled⟩
    exact absurd hsettled (by decide +kernel)

end DialogTable.Validation
