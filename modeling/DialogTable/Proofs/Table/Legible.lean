import DialogTable.Proofs.Table.Rewriting

/-!
# Legible tables

A table is legible if each of its rows keeps to one line and is read from it as what it is: a node
with its number and its kind, or a line that is none. The fields of a node that will be written anew
do not matter, since no text can spoil the first two cells of its row or break the row in two.

The main statements say what is found when a legible table is written and read again: as many lines
as there are rows and a heading (`Legible.length_lines_toText`), and in each place a node with the
same label, or no node (`Legible.map_label?_ofText_toText`).
-/

namespace DialogTable

/-- A line that says something and has no line break in it. -/
structure Text.Solid (line : String) : Prop where
  oneLine : Cell.OneLine line.toList
  notBlank : Text.isBlankText line = false

/-- What every edit of a row keeps in place. -/
def Node.label (node : Node) : Int × NodeKind :=
  (node.number, node.kind)

/-- The label of the node of a row, if it is one. -/
def Row.label? (row : Row) : Option (Int × NodeKind) :=
  row.node?.map Node.label

/-- A node whose number can be written and that, if it still has its line, is what is read from
it. -/
structure Node.Legible (node : Node) : Prop where
  number_inRange : Text.InRange64 node.number
  oneLine : ∀ line, node.line = some line → Cell.OneLine line.toList
  ofLine : ∀ line, node.line = some line → Node.ofLine line = .ok node

/-- A row that is read from its line as what it is. -/
def Row.Legible : Row → Prop
  | node n => n.Legible
  | skipped s => Text.Solid s.line ∧ Node.ofLine s.line = .error s.reason

/-- A table whose heading and rows keep to one line each and are read as what they are. -/
structure Table.Legible (table : Table) : Prop where
  heading : ∀ heading, table.heading = some heading → Text.Solid heading
  rows : ∀ row ∈ table.rows, row.Legible

theorem Text.Solid.plain {line : String} (h : Text.Solid line) : Text.Plain line where
  lineFeed hfeed := (h.oneLine _ hfeed).1 rfl
  notBlank := h.notBlank

/-! ### Labels -/

namespace Row

/-- The label of a row that was read depends on its line only. -/
theorem label?_ofLine (lineNumber : Nat) (line : String) :
    (ofLine lineNumber line).label? = (Node.ofLine line).toOption.map Node.label := by
  rw [label?, node?_ofLine]

end Row

namespace Table

/-- The labels of the nodes are those of the rows that have one. -/
theorem map_label_nodes (table : Table) :
    table.nodes.map Node.label = (table.rows.map Row.label?).filterMap id := by
  rw [Table.nodes, List.map_filterMap, List.filterMap_map]
  rfl

/-- The unread lines are the rows without a label. -/
theorem length_skipped (table : Table) :
    table.skipped.length = (table.rows.map Row.label?).countP Option.isNone := by
  rw [Table.skipped]
  induction table.rows with
  | nil => rfl
  | cons row rest ih =>
    cases row with
    | node n =>
      have hlabel : (Row.node n).label? = some n.label := rfl
      rw [List.map_cons, List.countP_cons, hlabel]
      exact ih
    | skipped s =>
      have hlabel : (Row.skipped s).label? = none := rfl
      rw [List.map_cons, List.countP_cons, hlabel, List.filterMap_cons, Row.skipped?,
        List.length_cons, ih]
      rfl

end Table

/-! ### What is written -/

namespace Node

/-- A node that will be written anew is legible, whatever is in its other fields. -/
theorem legible_of_line_none {node : Node} (hn : Text.InRange64 node.number)
    (h : node.line = none) : node.Legible where
  number_inRange := hn
  oneLine line hl := by
    rw [h] at hl
    cases hl
  ofLine line hl := by
    rw [h] at hl
    cases hl

theorem solid_encodeRow {node : Node} (h : Text.InRange64 node.number) :
    Text.Solid (Cell.encodeRow node.writtenCells) where
  oneLine := by
    rw [Cell.toList_encodeRow]
    exact Cell.oneLine_row _
  notBlank := (plain_encodeRow h).notBlank

theorem Legible.solid_toLine {node : Node} (h : node.Legible) : Text.Solid node.toLine := by
  cases hline : node.line with
  | none =>
    rw [toLine, hline, Option.getD_none]
    exact solid_encodeRow h.number_inRange
  | some line =>
    rw [toLine, hline, Option.getD_some]
    exact ⟨h.oneLine line hline, isBlankText_of_ofLine (h.ofLine line hline)⟩

theorem Legible.label_ofLine_toLine {node : Node} (h : node.Legible) :
    (Node.ofLine node.toLine).toOption.map label = some node.label := by
  cases hline : node.line with
  | none =>
    -- The other cells may be misread, but number and kind stand before them.
    have hlabel : node.readBack.label = node.label := by
      rw [label, number_readBack, kind_readBack, label]
    rw [toLine, hline, Option.getD_none, ofLine_encodeRow h.number_inRange, ← hlabel]
    rfl
  | some line =>
    rw [toLine, hline, Option.getD_some, h.ofLine line hline]
    rfl

end Node

namespace Row

theorem Legible.solid_toLine {row : Row} (h : row.Legible) : Text.Solid row.toLine := by
  cases row with
  | node n => exact Node.Legible.solid_toLine h
  | skipped s => exact h.1

theorem Legible.label_ofLine_toLine {row : Row} (h : row.Legible) :
    (Node.ofLine row.toLine).toOption.map Node.label = row.label? := by
  cases row with
  | node n => exact Node.Legible.label_ofLine_toLine h
  | skipped s =>
    rw [toLine, h.2]
    rfl

end Row

namespace Table

theorem solid_headingLine : Text.Solid Column.headingLine :=
  ⟨oneLine_headingLine, plain_headingLine.notBlank⟩

namespace Legible

variable {table : Table}

theorem solid_of_mem_writtenLines (h : table.Legible) :
    ∀ line ∈ table.writtenLines, Text.Solid line := by
  intro line hl
  rcases List.mem_cons.1 hl with rfl | hl
  · cases hheading : table.heading with
    | none => exact solid_headingLine
    | some heading => exact h.heading heading hheading
  · obtain ⟨row, hrow, rfl⟩ := List.mem_map.1 hl
    exact (h.rows row hrow).solid_toLine

/-- No line is written but the heading and one for each row. -/
theorem length_lines_toText (h : table.Legible) :
    (Text.lines table.toText.toList).length = 1 + table.size + table.skipped.length := by
  have hfeed : ∀ line ∈ table.writtenLines, '\n' ∉ line.toList :=
    fun line hl => (h.solid_of_mem_writtenLines line hl).plain.lineFeed
  rw [toText, ← writtenLines, Text.lines_closeLines hfeed, List.length_map, writtenLines,
    List.length_cons, List.length_map, length_rows, size]
  omega

/-- Each row is found again in its place. -/
theorem map_label?_ofText_toText (h : table.Legible) :
    (ofText table.toText).rows.map Row.label? = table.rows.map Row.label? := by
  have hplain : ∀ line ∈ table.writtenLines, Text.Plain line :=
    fun line hl => (h.solid_of_mem_writtenLines line hl).plain
  have hreturns : table.NoReturns :=
    noReturns_of_oneLine fun line hl => (h.solid_of_mem_writtenLines line hl).oneLine
  rw [map_rows_ofText_toText Row.label?_ofLine hplain hreturns]
  apply List.map_congr_left
  intro row hrow
  exact (h.rows row hrow).label_ofLine_toLine

theorem map_label_nodes_ofText_toText (h : table.Legible) :
    (ofText table.toText).nodes.map Node.label = table.nodes.map Node.label := by
  rw [map_label_nodes, h.map_label?_ofText_toText, ← map_label_nodes]

theorem length_skipped_ofText_toText (h : table.Legible) :
    (ofText table.toText).skipped.length = table.skipped.length := by
  rw [length_skipped, h.map_label?_ofText_toText, ← length_skipped]

theorem legible_of_mem_nodes (h : table.Legible) {node : Node} (hn : node ∈ table.nodes) :
    node.Legible :=
  h.rows (.node node) (mem_nodes.1 hn)

end Legible

/-! ### Legible tables -/

/-- A table that was read from a text without carriage returns is legible. -/
theorem legible_ofText {text : String} (h : '\r' ∉ text.toList) : (ofText text).Legible := by
  have hfaithful := faithful_ofText text
  have hone := oneLine_of_mem_writtenLines_ofText h
  refine ⟨?_, ?_⟩
  · intro heading hheading
    refine ⟨hone heading ?_, (hfaithful.heading heading hheading).notBlank⟩
    rw [writtenLines, hheading]
    exact List.mem_cons_self
  · intro row hrow
    have hline : Cell.OneLine row.toLine.toList :=
      hone row.toLine (List.mem_cons_of_mem _ (List.mem_map_of_mem hrow))
    have hread := hfaithful.rows row hrow
    cases row with
    | node n =>
      refine ⟨hread.regular.number_inRange, ?_, hread.ofLine⟩
      intro line hl
      rw [Row.toLine, Node.toLine, hl] at hline
      exact hline
    | skipped s => exact ⟨⟨hline, hread.1.notBlank⟩, hread.2⟩

theorem legible_ofNodes {nodes : List Node} (h : ∀ node ∈ nodes, node.Legible) :
    (ofNodes nodes).Legible := by
  refine ⟨?_, ?_⟩
  · intro heading hheading
    rw [← Option.some.inj hheading]
    exact solid_headingLine
  · intro row hrow
    obtain ⟨node, hnode, rfl⟩ := List.mem_map.1 hrow
    exact h node hnode

theorem Legible.push {table : Table} (h : table.Legible) {node : Node} (hn : node.Legible) :
    (table.push node).Legible := by
  refine ⟨h.heading, ?_⟩
  intro row hrow
  rcases List.mem_append.1 hrow with hrow | hrow
  · exact h.rows row hrow
  · rw [List.mem_singleton.1 hrow]
    exact hn

/-- Edits that leave nodes legible leave the table so. -/
theorem Legible.of_forall₂ {before after : Table} (h : before.Legible) {edit : Node → Node}
    (hheading : after.heading = before.heading)
    (hrows : List.Forall₂ (Row.EditOf edit) before.rows after.rows)
    (hedit : ∀ node ∈ before.nodes, (edit node).Legible) : after.Legible := by
  refine ⟨?_, ?_⟩
  · rw [hheading]
    exact h.heading
  · intro row hrow
    obtain ⟨old, hold, rfl | ⟨node, rfl, rfl⟩⟩ := Row.editOf_of_mem hrows hrow
    · exact h.rows row hold
    · exact hedit node (mem_nodes.2 hold)

end Table

end DialogTable
