import DialogTable.Proofs.Table.Legible

/-!
# Tables of new nodes

A table of nodes that were never read is written from their fields alone. Reading it finds each of
the nodes in its place (`nodes_ofText_toText_ofNodes`), and with all of its data as long as the
nodes are `Writable`: their fields have the form that reading gives them, and the text of each
column can stand in a row. The main statement is `sameData_ofText_toText_ofNodes`.
-/

namespace DialogTable

/-- A new node whose fields have the form that reading gives them. Each column is a text without
line breaks whose quotes come in pairs, and its commas stand all outside of quotes, or all inside
with no quote at either end. -/
structure Node.Writable (node : Node) : Prop where
  line : node.line = none
  regular : node.Regular
  oneLine : node.OneLine
  pairedQuotes : ∀ column, Cell.oddQuotes (node.columnText column).toList = false
  guardable : ∀ column, Cell.Guardable (node.columnText column).toList

namespace Node.Writable

variable {node : Node}

theorem rewritable (h : node.Writable) : node.Rewritable := by
  intro column
  rw [soundAt_iff]
  exact ⟨h.guardable column, fun _ => h.pairedQuotes column⟩

/-- What is read from the row of a writable node is the node. -/
theorem sameData (h : node.Writable) : node.SameData node.readBack :=
  sameData_readBack h.regular h.oneLine h.rewritable

theorem legible (h : node.Writable) : node.Legible :=
  legible_of_line_none h.regular.number_inRange h.line

end Node.Writable

namespace Table

theorem skipped_ofNodes (nodes : List Node) : (ofNodes nodes).skipped = [] := by
  rw [Table.skipped, ofNodes, List.filterMap_map]
  exact List.filterMap_eq_nil_iff.2 fun _ _ => rfl

/-- A table of new nodes is read again node by node. -/
theorem nodes_ofText_toText_ofNodes {nodes : List Node} (hr : ∀ node ∈ nodes, node.Regular)
    (hl : ∀ node ∈ nodes, node.line = none) :
    (ofText (ofNodes nodes).toText).nodes = nodes.map Node.readBack := by
  have hlegible : (ofNodes nodes).Legible := legible_ofNodes fun node hn =>
    Node.legible_of_line_none (hr node hn).number_inRange (hl node hn)
  have hfaithful : (ofNodes nodes).Faithful := by
    refine ⟨fun heading hh => (hlegible.heading heading hh).plain, ?_⟩
    intro row hrow
    obtain ⟨node, hn, rfl⟩ := List.mem_map.1 hrow
    exact Node.faithful_of_line_none (hr node hn) (hl node hn)
  have hreturns : (ofNodes nodes).NoReturns :=
    noReturns_of_oneLine fun line hline => (hlegible.solid_of_mem_writtenLines line hline).oneLine
  rw [nodes_ofText_toText hfaithful hreturns, nodes_ofNodes]
  apply List.map_congr_left
  intro node hn
  exact Node.reread_of_line_none (hl node hn)

/-- **Reading undoes writing.** A table of writable nodes is read again without any line being left
unread, and its nodes are the given ones in their order, with the same typed fields and the same
texts in the columns that are only carried along. -/
theorem sameData_ofText_toText_ofNodes {nodes : List Node} (h : ∀ node ∈ nodes, node.Writable) :
    (ofText (ofNodes nodes).toText).skipped = [] ∧
      List.Forall₂ Node.SameData nodes (ofText (ofNodes nodes).toText).nodes := by
  constructor
  · -- An unread line would have no label, and labels are kept in place.
    have hlegible : (ofNodes nodes).Legible := legible_ofNodes fun node hn => (h node hn).legible
    have hlength := hlegible.length_skipped_ofText_toText
    rw [skipped_ofNodes, List.length_nil] at hlength
    exact List.eq_nil_of_length_eq_zero hlength
  · rw [nodes_ofText_toText_ofNodes (fun node hn => (h node hn).regular)
      (fun node hn => (h node hn).line), List.forall₂_map_right_iff, List.forall₂_same]
    exact fun node hn => (h node hn).sameData

/-- Commas inside and outside of quotes, a label with a separator, and the least number. -/
theorem sameData_of_quoted_commas :
    let node : Node :=
      { number := 7, kind := .decision, name := "say \"a, b\" now", message := some "\"x\", y "
        nextNodes := [-9223372036854775808, 3], command := some "Run"
        routes := [{ label := "on~off, \"or\"", target := -4 }] }
    (ofText (ofNodes [node]).toText).skipped = [] ∧
      List.Forall₂ Node.SameData [node] (ofText (ofNodes [node]).toText).nodes := by
  intro node
  have hroute : ({ label := "on~off, \"or\"", target := -4 } : Route).Regular :=
    ⟨by decide +kernel, by decide +kernel, by decide⟩
  have hregular : node.Regular := by
    refine ⟨by decide, ?_, nofun, nofun, ?_, ?_, by decide, ?_⟩
    · rintro message ⟨⟩
      decide +kernel
    · rintro command ⟨⟩
      decide +kernel
    · rintro command ⟨⟩
      decide +kernel
    · intro route hmem
      rw [List.mem_singleton.1 hmem]
      exact hroute
  have hwritable : node.Writable :=
    ⟨rfl, hregular, by decide +kernel, by decide +kernel, by decide +kernel⟩
  apply sameData_ofText_toText_ofNodes
  intro other hother
  rw [List.mem_singleton.1 hother]
  exact hwritable

end Table

end DialogTable
