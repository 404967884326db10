import DialogTable.Proofs.Validation.FixedPoint

/-!
# What fixing leaves alone

Fixes find their nodes by position, and each one has the row at its position written anew before it
is known whether it changes anything. So what stays as it was is a matter of the rows, not of the
nodes alone: fixing mends every node in the row that it stands in, and moves, adds and takes away no
row (`rows_validateTable`). A node for which nothing was proposed keeps its line with all else
(`mend_of_settled`). The others keep everything but their exits, and of these the ones that lead
somewhere (`spares_mend`).
-/

namespace DialogTable

namespace Table

/-- How many nodes stand above a row. This is the position of the node in the row. -/
def nodesAbove (table : Table) (i : Nat) : Nat :=
  ((table.rows.take i).filterMap Row.node?).length

theorem getElem?_nodes_nodesAbove {table : Table} {i : Nat} {node : Node}
    (h : table.rows[i]? = some (.node node)) : table.nodes[table.nodesAbove i]? = some node := by
  have hrows : table.rows = table.rows.take i ++ .node node :: table.rows.drop (i + 1) := by
    obtain ⟨hlt, hget⟩ := List.getElem?_eq_some_iff.1 h
    rw [← hget, ← List.drop_eq_getElem_cons hlt, List.take_append_drop]
  have hnodes : table.nodes = (table.rows.take i).filterMap Row.node? ++
      node :: (table.rows.drop (i + 1)).filterMap Row.node? := by
    rw [Table.nodes]
    conv_lhs => rw [hrows]
    rw [List.filterMap_append]
    rfl
  rw [hnodes, nodesAbove, List.getElem?_append_right (Nat.le_refl _), Nat.sub_self]
  rfl

end Table

namespace Validation

/-! ### Rows of a fixed table -/

namespace Fix

theorem heading_apply (fix : Fix) (table : Table) :
    (fix.apply table).1.heading = table.heading := by
  rw [fst_apply]
  rfl

theorem unread_apply (fix : Fix) (table : Table) :
    (fix.apply table).1.rows.map Row.skipped? = table.rows.map Row.skipped? := by
  rw [fst_apply]
  exact Row.map_skipped?_editAt _ fix.position table.rows

theorem heading_applyAll (fixes : List Fix) (table : Table) :
    (applyAll fixes table).1.heading = table.heading := by
  rw [fst_applyAll]
  induction fixes generalizing table with
  | nil => rfl
  | cons fix rest ih => rw [List.foldl_cons, ih, heading_apply]

theorem unread_applyAll (fixes : List Fix) (table : Table) :
    (applyAll fixes table).1.rows.map Row.skipped? = table.rows.map Row.skipped? := by
  rw [fst_applyAll]
  induction fixes generalizing table with
  | nil => rfl
  | cons fix rest ih => rw [List.foldl_cons, ih, unread_apply]

end Fix

/-- Fixing mends every node in its row and leaves the unread lines in theirs. -/
theorem rows_validateTable (policy : Policy) (table : Table) :
    (validateTable policy true table).2.rows =
      table.rows.map (Row.mapNode (mend policy (Graph.numbers table.nodes))) := by
  apply Row.eq_of_nodes_eq
  · rw [Row.map_skipped?_map_mapNode, validateTable_true]
    exact Fix.unread_applyAll _ table
  · rw [Row.filterMap_node?_map_mapNode]
    exact nodes_validateTable policy table

/-! ### Nodes with something to fix -/

/-- One of the findings that can be fixed is about the node at the position. -/
def FixableAt (policy : Policy) (nodes : List Node) (position : Nat) : Prop :=
  ∃ finding ∈ findings policy nodes,
    finding.issue.fixable = true ∧ finding.fix.map Fix.position = some position

theorem fixableAt_iff_mem_fixes {policy : Policy} {nodes : List Node} {position : Nat} :
    FixableAt policy nodes position ↔ ∃ fix ∈ fixes policy nodes, fix.position = position := by
  constructor
  · rintro ⟨finding, hmem, -, hposition⟩
    obtain ⟨fix, hfix, hat⟩ := Option.map_eq_some_iff.1 hposition
    exact ⟨fix, List.mem_filterMap.2 ⟨finding, hmem, hfix⟩, hat⟩
  · rintro ⟨fix, hmem, hat⟩
    obtain ⟨finding, hfinding, hfix⟩ := List.mem_filterMap.1 hmem
    have hcoherent : finding.issue.fixable = finding.fix.isSome := coherent_of_mem_findings hfinding
    rw [hfix, Option.isSome_some] at hcoherent
    exact ⟨finding, hfinding, hcoherent, by rw [hfix, Option.map_some, hat]⟩

theorem fixableAt_iff {policy : Policy} {nodes : List Node} {position : Nat} {node : Node}
    (h : nodes[position]? = some node) :
    FixableAt policy nodes position ↔ ¬ Settled policy (Graph.numbers nodes) node := by
  rw [fixableAt_iff_mem_fixes, Settled, List.eq_nil_iff_forall_not_mem, not_forall_not]
  constructor
  · rintro ⟨fix, hmem, rfl⟩
    obtain ⟨other, hother, hedit⟩ := mem_fixes.1 hmem
    rw [h, Option.some.injEq] at hother
    exact ⟨fix.edit, hother ▸ hedit⟩
  · rintro ⟨edit, hedit⟩
    exact ⟨⟨position, edit⟩, mem_fixes.2 ⟨node, h, hedit⟩, rfl⟩

/-- What fixing spares of a node that it edits: everything but the next nodes, the routes and the line
that the node was read from. Next nodes that lead to known numbers are kept in their order. Routes
keep their places and their labels, and their targets where these are known. -/
structure Spares (known : List Int) (old new : Node) : Prop where
  rest : new = old.withExits new.nextNodes new.routes
  nextNodes : (old.nextNodes.filter (· ∈ known)).Sublist new.nextNodes
  routes : ∀ (i : Nat) (route : Route), old.routes[i]? = some route →
    ∃ kept : Route, new.routes[i]? = some kept ∧ kept.label = route.label ∧
      (route.target ∈ known → kept = route)

section Mending

variable (policy : Policy) (known : List Int) (node : Node)

theorem filter_sublist_mendedNextNodes :
    (node.nextNodes.filter (· ∈ known)).Sublist (mendedNextNodes policy known node) := by
  rw [mendedNextNodes]
  split
  · exact List.Sublist.refl _
  · next hexit =>
    have hnone : node.nextNodes.filter (· ∈ known) = [] :=
      List.filter_eq_nil_iff.2 (List.any_eq_false.1 (Bool.eq_false_iff.2 hexit))
    rw [hnone]
    exact List.nil_sublist _

theorem getElem?_mendedRoutes {i : Nat} {route : Route} (h : node.routes[i]? = some route) :
    (mendedRoutes policy known node)[i]? =
      some { route with target := (reroute? policy known node route).getD route.target } := by
  have hlt : i < node.routes.length := (List.getElem?_eq_some_iff.1 h).1
  rw [mendedRoutes, List.getElem?_append_left (by rwa [List.length_map]), List.getElem?_map, h]
  rfl

theorem spares_mend {policy : Policy} {known : List Int} {node : Node}
    (h : ¬ Settled policy known node) : Spares known node (mend policy known node) where
  rest := by
    rw [nextNodes_mend, routes_mend]
    exact mend_of_not_settled h
  nextNodes := by
    rw [nextNodes_mend]
    exact filter_sublist_mendedNextNodes policy known node
  routes i route hroute := by
    refine ⟨{ route with target := (reroute? policy known node route).getD route.target }, ?_, rfl,
      fun hknown => ?_⟩
    · rw [routes_mend]
      exact getElem?_mendedRoutes policy known node hroute
    · rw [reroute?, if_pos hknown, Option.getD_none]

end Mending

/-- **Fixing touches nothing else.** The nodes are the same, in the same order, and every row stays
in its place, also where numbers repeat. A row without something to fix is the same row and is
written as the same line: an unread line, and a node with its source line if it has one. The other
nodes keep all but their exits, and of these all that lead to a node. -/
theorem fixes_spare_rest (policy : Policy) (table : Table) :
    let report := (validateTable policy true table).1
    let fixed := (validateTable policy true table).2
    let known := Graph.numbers table.nodes
    report.fixedText = some (Text.closeLines fixed.writtenLines) ∧
      fixed.heading = table.heading ∧
      fixed.rows.length = table.rows.length ∧
      Graph.numbers fixed.nodes = known ∧
      (∀ i unread, table.rows[i]? = some (.skipped unread) →
        fixed.rows[i]? = some (.skipped unread) ∧
          fixed.writtenLines[i + 1]? = some unread.line) ∧
      ∀ i node, table.rows[i]? = some (.node node) →
        table.nodes[table.nodesAbove i]? = some node ∧
          (¬ FixableAt policy table.nodes (table.nodesAbove i) →
            fixed.rows[i]? = some (.node node) ∧
              fixed.writtenLines[i + 1]? = some node.toLine) ∧
          (FixableAt policy table.nodes (table.nodesAbove i) →
            ∃ mended, fixed.rows[i]? = some (.node mended) ∧ Spares known node mended) := by
  intro report fixed known
  have hrows : fixed.rows = table.rows.map (Row.mapNode (mend policy known)) :=
    rows_validateTable policy table
  have hnodes : fixed.nodes = mendAll policy table.nodes := nodes_validateTable policy table
  have hrow : ∀ (i : Nat) (row : Row), table.rows[i]? = some row →
      fixed.rows[i]? = some (row.mapNode (mend policy known)) := by
    intro i row h
    rw [hrows, List.getElem?_map, h, Option.map_some]
  refine ⟨?_, ?_, ?_, ?_, ?_, ?_⟩
  · exact congrArg (fun result => result.1.fixedText) (validateTable_true policy table)
  · exact Fix.heading_applyAll _ table
  · rw [hrows, List.length_map]
  · rw [hnodes, numbers_mendAll]
  · intro i unread h
    exact ⟨hrow i _ h, Table.getElem?_writtenLines (hrow i _ h)⟩
  · intro i node h
    have hnode := Table.getElem?_nodes_nodesAbove h
    refine ⟨hnode, fun hnot => ?_, fun hfixable => ?_⟩
    · rw [fixableAt_iff hnode, not_not] at hnot
      have hsame : fixed.rows[i]? = some (.node node) := by
        rw [hrow i _ h, Row.mapNode, mend_of_settled hnot]
      exact ⟨hsame, Table.getElem?_writtenLines hsame⟩
    · exact ⟨mend policy known node, hrow i _ h, spares_mend ((fixableAt_iff hnode).1 hfixable)⟩

end Validation

end DialogTable
