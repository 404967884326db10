import DialogTable.Proofs.Table.Rewriting

/-!
# Nodes that are changed outside of a table

A node that is taken out of a table can be given other fields and be put into a new table. `Change`
collects the ways to do so. Unlike the edits of a table they leave the node its line
(`line_changed`), and the line is what is written: a node that was read is written as it was read,
whatever was changed. So a change of it is written only where there is nothing to write, that is
where the row written anew would be read as the node before the change (`toLine_changed_iff`). A
node without a line is written from its fields.
-/

namespace DialogTable

namespace Node

/-- A way to change a node that is in no table. -/
inductive Change
  | message (text : String)
  | nextNodes (next : List Int)
  | command (text : String)
  | route (label : String) (target : Int)
  | richContent (type payload : String)
  | cell (column : Column) (text : String)
  deriving DecidableEq, Repr

/-- The node after a change. -/
def Change.run (node : Node) : Change → Node
  | message text => node.withMessage text
  | nextNodes next => node.withNextNodes next
  | command text => node.withCommand text
  | route label target => node.withRoute label target
  | richContent type payload => node.withRichContent type payload
  | cell column text => node.withCell column text

/-- The node after changes, one after another. -/
def changed (node : Node) (changes : List Change) : Node :=
  changes.foldl Change.run node

theorem Change.line_run (change : Change) (node : Node) : (change.run node).line = node.line := by
  cases change <;> rfl

theorem Change.number_run (change : Change) (node : Node) :
    (change.run node).number = node.number := by
  cases change <;> rfl

/-- Changes do not mark the row for writing. -/
theorem line_changed (node : Node) (changes : List Change) :
    (node.changed changes).line = node.line := by
  induction changes generalizing node with
  | nil => rfl
  | cons change later ih => exact (ih (change.run node)).trans (change.line_run node)

theorem number_changed (node : Node) (changes : List Change) :
    (node.changed changes).number = node.number := by
  induction changes generalizing node with
  | nil => rfl
  | cons change later ih => exact (ih (change.run node)).trans (change.number_run node)

/-- The fields of a changed node are written only if the node has no line. -/
theorem toLine_changed (node : Node) (changes : List Change) :
    (node.changed changes).toLine =
      node.line.getD (Cell.encodeRow (node.changed changes).writtenCells) := by
  rw [toLine, line_changed]

section Read

variable {line : String} {node : Node}

/-- A changed node is written from its fields exactly if reading them gives the node before the
changes. -/
theorem toLine_changed_iff (h : ofLine line = .ok node) (changes : List Change) :
    (node.changed changes).toLine = Cell.encodeRow (node.changed changes).writtenCells ↔
      (node.changed changes).readBack = node := by
  have hline : node.line = some line := line_of_ofLine h
  rw [toLine_changed, hline, Option.getD_some]
  constructor
  · intro heq
    have hnumber : Text.InRange64 (node.changed changes).number := by
      rw [number_changed]
      exact (regular_ofLine h).number_inRange
    have hread := ofLine_encodeRow hnumber
    rw [← heq, h] at hread
    exact (Except.ok.inj hread).symm
  · intro hread
    have hnew : (node.changed changes).readBack.line =
        some (Cell.encodeRow (node.changed changes).writtenCells) := rfl
    rw [hread, hline] at hnew
    exact Option.some.inj hnew

/-- Of data that can be written and read back, changes are written only if they change nothing. -/
theorem sameData_of_toLine_changed (h : ofLine line = .ok node) {changes : List Change}
    (hr : (node.changed changes).Regular) (ho : (node.changed changes).OneLine)
    (hw : (node.changed changes).Rewritable)
    (hline : (node.changed changes).toLine =
      Cell.encodeRow (node.changed changes).writtenCells) :
    (node.changed changes).SameData node := by
  have hsame := sameData_readBack hr ho hw
  rwa [(toLine_changed_iff h changes).1 hline] at hsame

end Read

end Node

namespace Table

/-- The line of a node in a new table. -/
theorem getElem?_writtenLines_ofNodes (before after : List Node) (node : Node) :
    (ofNodes (before ++ node :: after)).writtenLines[before.length + 1]? = some node.toLine := by
  have hrow : (ofNodes (before ++ node :: after)).rows[before.length]? = some (.node node) := by
    rw [ofNodes, List.getElem?_map, List.getElem?_append_right (Nat.le_refl _), Nat.sub_self]
    rfl
  exact getElem?_writtenLines hrow

/-- **When a change is written.** A node that was read, then changed and put into a new table is
written as the line that it was read from. This is the row of the changed fields exactly if that row
would be read as the node before the changes. So where the changed fields can be written and read
back at all, it is only if no data were changed. -/
theorem change_written_iff {text : String} {node : Node} (h : node ∈ (ofText text).nodes)
    (changes : List Node.Change) (before after : List Node) :
    let changed := node.changed changes
    let written := (ofNodes (before ++ changed :: after)).writtenLines[before.length + 1]?
    written = node.line ∧
      (written = some (Cell.encodeRow changed.writtenCells) ↔ changed.readBack = node) ∧
      (changed.Regular → changed.OneLine → changed.Rewritable →
        written = some (Cell.encodeRow changed.writtenCells) → changed.SameData node) := by
  intro changed written
  obtain ⟨line, hline, -⟩ := ofLine_of_mem_nodes_ofText h
  have hwritten : written = some changed.toLine := getElem?_writtenLines_ofNodes before after changed
  rw [hwritten, Option.some.injEq]
  refine ⟨?_, Node.toLine_changed_iff hline changes, Node.sameData_of_toLine_changed hline⟩
  rw [Node.toLine_changed, Node.line_of_ofLine hline, Option.getD_some]

/-- A message that is taken back leaves a full row as it was. -/
theorem change_written_of_full_row :
    let line := "1,D,a,,,,,,Hi,,,,,,,,,,,,,,,,,"
    let node := Node.ofCells 1 .decision (["1", "D", "a", "", "", "", "", "", "Hi"] ++
      List.replicate 17 "") line
    let changed := node.changed [.message "Bye", .message "Hi"]
    (ofNodes [changed]).writtenLines[1]? = some line ∧
      (ofNodes [changed]).writtenLines[1]? = some (Cell.encodeRow changed.writtenCells) := by
  intro line node changed
  have hnode : node ∈ (ofText ("h\n" ++ line)).nodes := by decide +kernel
  have hread : changed.readBack = node := by decide +kernel
  obtain ⟨hline, hwritten, -⟩ := change_written_iff hnode [.message "Bye", .message "Hi"] [] []
  exact ⟨hline, hwritten.2 hread⟩

/-- A message that is set after the row was read is not written. -/
theorem message_not_written :
    ¬ ∀ (text : String) (node : Node) (changes : List Node.Change) (before after : List Node),
      node ∈ (ofText text).nodes → changes ≠ [] →
      (ofNodes (before ++ node.changed changes :: after)).writtenLines[before.length + 1]? =
        some (Cell.encodeRow (node.changed changes).writtenCells) := by
  intro h
  let node := Node.ofCells 1 .decision ["1", "D", "a", "", "", "", "", "", "Hi"] "1,D,a,,,,,,Hi"
  have hnode : node ∈ (ofText "h\n1,D,a,,,,,,Hi\n").nodes := by decide +kernel
  have hwritten := h "h\n1,D,a,,,,,,Hi\n" node [.message "Bye"] [] [] hnode (List.cons_ne_nil _ _)
  rw [getElem?_writtenLines_ofNodes, Option.some.injEq, Node.toLine_changed] at hwritten
  exact absurd hwritten (by decide +kernel)

end Table

end DialogTable
