import DialogTable.Proofs.Validation.Idempotence

/-!
# The fixed text and the fixed table

Fixing a text gives a text, fixing a table leaves a table. Reading the one gives the nodes of the
other, as long as no line ends in a carriage return and no row with something to fix has a quote in
it: the rows that are written anew have no comma in a cell then, and the others are kept as they
are (`sameData_fixedText`). What the checks find depends on the data of the nodes only
(`findings_map_dataOnly`), so that it does not matter which of the two is validated again.
-/

namespace DialogTable

/-! ### Data of a node -/

namespace Node

/-- The node without its line and without the raw texts that are not its data: those of the columns
that are held as typed fields and those behind the last column. -/
def dataOnly (node : Node) : Node :=
  { node with
    cells := Column.all.map fun column => if column ∈ Column.typed then "" else node.cell column
    line := none }

theorem SameData.dataOnly_eq {a b : Node} (h : a.SameData b) : a.dataOnly = b.dataOnly := by
  have hcells : (fun column => if column ∈ Column.typed then "" else a.cell column) =
      fun column => if column ∈ Column.typed then "" else b.cell column := by
    funext column
    split
    · rfl
    · next hty => exact h.cell column hty
  rw [dataOnly, dataOnly, hcells, h.number, h.kind, h.name, h.message, h.richContentType,
    h.richContent, h.nextNodes, h.command, h.routes]

theorem number_dataOnly (node : Node) : node.dataOnly.number = node.number := rfl

theorem kind_dataOnly (node : Node) : node.dataOnly.kind = node.kind := rfl

theorem cell_dataOnly (node : Node) {column : Column} (h : column ∉ Column.typed) :
    node.dataOnly.cell column = node.cell column := by
  rw [cell, dataOnly, List.getD_eq_getElem?_getD, List.getElem?_map, Column.getElem?_all_index,
    Option.map_some, Option.getD_some, if_neg h]

theorem SameData.refl (node : Node) : node.SameData node :=
  ⟨rfl, rfl, rfl, rfl, rfl, rfl, rfl, rfl, rfl, fun _ _ => rfl⟩

end Node

namespace Validation

/-! ### The checks look at data only -/

theorem isEndpoint_dataOnly (policy : Policy) (node : Node) :
    policy.isEndpoint node.dataOnly = policy.isEndpoint node := by
  have htokens : ∀ column ∉ Column.typed, node.dataOnly.tokens column = node.tokens column := by
    intro column h
    rw [Node.tokens, node.cell_dataOnly h, Node.tokens]
  simp only [Policy.isEndpoint, List.any_cons, List.any_nil, htokens .nodeTags (by decide),
    htokens .behaviors (by decide)]

section Checks

variable (policy : Policy) (nodes : List Node)

theorem numbers_map_dataOnly : Graph.numbers (nodes.map Node.dataOnly) = Graph.numbers nodes :=
  Graph.numbers_map Node.number_dataOnly nodes

theorem edges_map_dataOnly :
    (Graph.ofNodes (nodes.map Node.dataOnly)).edges = (Graph.ofNodes nodes).edges := by
  rw [Graph.edges_ofNodes, Graph.edges_ofNodes, numbers_map_dataOnly, Graph.declared,
    List.flatMap_map]
  rfl

theorem checkReferences_map_dataOnly :
    checkReferences policy (Graph.ofNodes (nodes.map Node.dataOnly)) =
      checkReferences policy (Graph.ofNodes nodes) := by
  rw [checkReferences_eq, checkReferences_eq, numbers_map_dataOnly, overNodes_map]
  rfl

theorem checkContent_map_dataOnly :
    checkContent (nodes.map Node.dataOnly) = checkContent nodes := by
  rw [checkContent, List.filterMap_map]
  rfl

theorem checkReached_map_dataOnly :
    checkReached (Graph.ofNodes (nodes.map Node.dataOnly)) =
      checkReached (Graph.ofNodes nodes) := by
  have hnumbers : Graph.numbers (Graph.ofNodes (nodes.map Node.dataOnly)).nodes =
      Graph.numbers (Graph.ofNodes nodes).nodes := numbers_map_dataOnly nodes
  simp only [checkReached, lowestNumber?, hnumbers, Graph.edgesTo_ofNodes, edges_map_dataOnly]

theorem checkExits_map_dataOnly :
    checkExits policy (Graph.ofNodes (nodes.map Node.dataOnly)) =
      checkExits policy (Graph.ofNodes nodes) := by
  have hfirst : firstDecisions (Graph.ofNodes (nodes.map Node.dataOnly)).nodes =
      (firstDecisions nodes).map Node.dataOnly :=
    firstDecisions_map Node.number_dataOnly Node.kind_dataOnly nodes
  have hdegree : (Graph.ofNodes (nodes.map Node.dataOnly)).outDegree =
      (Graph.ofNodes nodes).outDegree := by
    funext number
    rw [Graph.outDegree_ofNodes, Graph.outDegree_ofNodes, edges_map_dataOnly]
  rw [checkExits, hfirst, List.filter_map, List.map_map, checkExits, hdegree]
  simp only [Function.comp_def, isEndpoint_dataOnly]
  rfl

theorem checkErrorRoutes_map_dataOnly :
    checkErrorRoutes policy (nodes.map Node.dataOnly) = checkErrorRoutes policy nodes := by
  rw [checkErrorRoutes_eq, checkErrorRoutes_eq, numbers_map_dataOnly, overNodes_map]
  rfl

/-- Lines, raw texts of typed fields and cells behind the last column do not matter. -/
theorem findings_map_dataOnly : findings policy (nodes.map Node.dataOnly) = findings policy nodes := by
  have hnumbers : checkNumbers (nodes.map Node.dataOnly) = checkNumbers nodes := by
    rw [checkNumbers, numbers_map_dataOnly, checkNumbers]
  rw [findings, findings, hnumbers, checkReferences_map_dataOnly, checkContent_map_dataOnly,
    checkReached_map_dataOnly, checkExits_map_dataOnly, checkErrorRoutes_map_dataOnly]

end Checks

/-- Nodes with the same data have the same issues. -/
theorem issues_of_sameData (policy : Policy) {a b : List Node}
    (h : List.Forall₂ Node.SameData a b) : issues policy a = issues policy b := by
  have hdata : a.map Node.dataOnly = b.map Node.dataOnly := by
    induction h with
    | nil => rfl
    | cons hhead _ ih => rw [List.map_cons, List.map_cons, hhead.dataOnly_eq, ih]
  rw [issues, issues, ← findings_map_dataOnly policy a, hdata, findings_map_dataOnly]

/-! ### Rows without quotes -/

theorem not_mem_columnText_mend (policy : Policy) (known : List Int) {node : Node}
    (h : node.FromCells) {c : Char} (hcell : ∀ column, c ∉ (node.cell column).toList)
    (hmark : ¬ Node.IsMark c) (hlabel : c ∉ errorLabel.toList) (column : Column) :
    c ∉ ((mend policy known node).columnText column).toList := by
  intro hc
  rcases mem_columnText_mend policy known node hc with hc | hc | hc
  · exact (h.mem_columnText hc).elim (hcell column) hmark
  · exact hmark hc
  · exact hlabel hc

/-- The columns of a mended node have neither commas nor quotes if its line had no quote. -/
theorem rewritable_mend (policy : Policy) (known : List Int) {line : String} {node : Node}
    (h : Node.ofLine line = .ok node) (hquote : '"' ∉ line.toList) :
    (mend policy known node).Rewritable := by
  have hcells : ∀ column, ',' ∉ (node.cell column).toList ∧ '"' ∉ (node.cell column).toList := by
    intro column
    rcases Node.cell_ofLine h column with hnil | hcell
    · rw [hnil]
      exact ⟨List.not_mem_nil, List.not_mem_nil⟩
    · exact ⟨Cell.comma_not_mem_of_mem_split hquote hcell,
        fun hc => hquote (Cell.mem_of_mem_split hcell hc)⟩
  have hread : node.FromCells := Node.fromCells_ofLine h
  intro column
  apply Node.soundAt_of_not_mem
  · exact not_mem_columnText_mend policy known hread (fun other => (hcells other).1) (by decide)
      (by decide +kernel) column
  · exact not_mem_columnText_mend policy known hread (fun other => (hcells other).2) (by decide)
      (by decide +kernel) column

/-! ### The two ways to the fixed nodes -/

/-- No row with something to fix has a quote or a carriage return in it. -/
def FixablePlain (policy : Policy) (nodes : List Node) : Prop :=
  ∀ fix ∈ fixes policy nodes, ∀ node ∈ nodes[fix.position]?, ∀ line ∈ node.line,
    '"' ∉ line.toList ∧ '\r' ∉ line.toList

/-- Something is fixed in a row exactly if its node is not settled. -/
theorem fixablePlain_iff {policy : Policy} {nodes : List Node} :
    FixablePlain policy nodes ↔
      ∀ node ∈ nodes, ¬ Settled policy (Graph.numbers nodes) node → ∀ line ∈ node.line,
        '"' ∉ line.toList ∧ '\r' ∉ line.toList := by
  constructor
  · intro h node hnode hedits
    obtain ⟨position, hposition⟩ := List.getElem?_of_mem hnode
    obtain ⟨edit, hedit⟩ := List.exists_mem_of_ne_nil _ hedits
    exact h ⟨position, edit⟩ (mem_fixes.2 ⟨node, hposition, hedit⟩) node hposition
  · intro h fix hfix node hnode
    obtain ⟨found, hfound, hedit⟩ := mem_fixes.1 hfix
    rw [Option.mem_def, hfound, Option.some.injEq] at hnode
    subst hnode
    exact h found (List.mem_of_getElem? hfound) (List.ne_nil_of_mem hedit)

section FixedText

variable {policy : Policy} {text : String}

/-- The nodes of the fixed table are read again with their data. -/
theorem sameData_reread (h : FixablePlain policy (Table.ofText text).nodes) {node : Node}
    (hnode : node ∈ (fixedTable policy text).nodes) : node.SameData node.reread := by
  have hregular : node.Regular := (faithful_fixedTable policy text).regular hnode
  cases hwritten : node.line with
  | some line =>
    rw [Node.reread_of_line_some hwritten]
    exact Node.SameData.refl node
  | none =>
    rw [nodes_fixedTable] at hnode
    obtain ⟨old, hold, rfl⟩ := List.mem_map.1 hnode
    obtain ⟨line, hread, -⟩ := Table.ofLine_of_mem_nodes_ofText hold
    have hline := Node.line_of_ofLine hread
    -- A node for which nothing is proposed would still have its line.
    have hedits : ¬ Settled policy (Graph.numbers (Table.ofText text).nodes) old := by
      intro hsettled
      rw [mend_of_settled hsettled, hline] at hwritten
      cases hwritten
    obtain ⟨hquote, hreturn⟩ := fixablePlain_iff.1 h old hold hedits line hline
    have hplain : Text.Plain line :=
      ((Table.faithful_ofText text).faithful_of_mem_nodes hold).plain line hline
    have hone : Cell.OneLine line.toList :=
      fun c hc => ⟨fun heq => hplain.lineFeed (heq ▸ hc), fun heq => hreturn (heq ▸ hc)⟩
    rw [Node.reread_of_line_none hwritten]
    exact Node.sameData_readBack hregular (oneLine_mend policy _ (Node.oneLine_ofLine hread hone))
      (rewritable_mend policy _ hread hquote)

/-- **Fixing a text and fixing its table agree.** If no line of a text ends in a carriage return and
no row with something to fix has a quote or a carriage return in it, the fixed text is read as the
nodes of the fixed table, with the same data. Validating the fixed text finds exactly the issues
that validating the fixed table finds. -/
theorem sameData_fixedText (policy : Policy) {text : String}
    (hreturns : ∀ line ∈ Text.lines text.toList, line.getLast? ≠ some '\r')
    (hplain : FixablePlain policy (Table.ofText text).nodes) :
    ∃ fixedText, (validate policy true text).fixedText = some fixedText ∧
      List.Forall₂ Node.SameData (fixedTable policy text).nodes (Table.ofText fixedText).nodes ∧
      ∀ fix, (validate policy fix fixedText).issues =
        (validateTable policy fix (fixedTable policy text)).1.issues := by
  have hkept : (fixedTable policy text).NoReturns :=
    (edits_fixedTable policy text).noReturns (Table.noReturns_ofText hreturns)
  have hsame : List.Forall₂ Node.SameData (fixedTable policy text).nodes
      (Table.ofText (fixedTable policy text).toText).nodes := by
    rw [Table.nodes_ofText_toText (faithful_fixedTable policy text) hkept,
      List.forall₂_map_right_iff, List.forall₂_same]
    exact fun node hnode => sameData_reread hplain hnode
  refine ⟨(fixedTable policy text).toText, fixedText_validate policy text, hsame, fun fix => ?_⟩
  rw [validate, issues_validateTable, issues_validateTable, issues_of_sameData policy hsame]

/-- An action gets its route for errors, beside a row with a quoted comma that is left alone. -/
theorem sameData_fixedText_errorRoute :
    let text := "h\n5,A,n,,,,,,,,,,,Cmd\n7,D,\"a, b\",,,,,,hi\n99990,D,end,,,,,,bye\n"
    ∃ fixedText, (validate {} true text).fixedText = some fixedText ∧
      List.Forall₂ Node.SameData (fixedTable {} text).nodes (Table.ofText fixedText).nodes ∧
      ∀ fix, (validate {} fix fixedText).issues =
        (validateTable {} fix (fixedTable {} text)).1.issues := by
  intro text
  have hreturns : ∀ line ∈ Text.lines text.toList, line.getLast? ≠ some '\r' := by
    decide +kernel
  have hplain : FixablePlain {} (Table.ofText text).nodes := by
    rw [fixablePlain_iff]
    decide +kernel
  exact sameData_fixedText {} hreturns hplain

end FixedText

end Validation

end DialogTable
