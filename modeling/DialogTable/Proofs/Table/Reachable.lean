import DialogTable.Script
import DialogTable.Proofs.Table.Legible
import DialogTable.Proofs.Validation.Edits

/-!
# Tables that a program can reach

A program reads tables and builds them from nodes, adds nodes and edits them, has them fixed and
removes scripts from them. `Reachable` collects the tables that come about in this way, whatever
texts the built and edited fields hold. Each operation leaves a table legible, so no row is ever
lost, merged, repeated or smuggled in by writing a reachable table (`Reachable.rows_kept`).
-/

namespace DialogTable

/-- A node as a program may hand it to a table: built field by field, or found in a table that was
read, and not edited since. -/
inductive Node.Given : Node → Prop
  | built {node : Node} (line : node.line = none) (number : Text.InRange64 node.number) : Given node
  | read {text : String} {node : Node} (h : '\r' ∉ text.toList)
      (hn : node ∈ (Table.ofText text).nodes) : Given node

/-- The tables that a program can reach. An edit may set any field of the node, which has no line
then. -/
inductive Table.Reachable : Table → Prop
  | ofText {text : String} (h : '\r' ∉ text.toList) : Reachable (ofText text)
  | ofNodes {nodes : List Node} (h : ∀ node ∈ nodes, node.Given) : Reachable (ofNodes nodes)
  | push {table : Table} (ht : Reachable table) {node : Node} (h : node.Given) :
    Reachable (table.push node)
  | editNode {table : Table} (ht : Reachable table) (number : Int) {edit : Node → Node}
      (h : ∀ node ∈ table.nodes, (edit node.touch).Given) : Reachable (table.editNode number edit)
  | editAt {table : Table} (ht : Reachable table) (position : Nat) {edit : Node → Node}
      (h : ∀ node ∈ table.nodes, (edit node.touch).Given) : Reachable (table.editAt position edit)
  | editWhere {table : Table} (ht : Reachable table) (p : Node → Bool) {edit : Node → Node}
      (h : ∀ node ∈ table.nodes, (edit node.touch).Given) : Reachable (table.editWhere p edit)
  | fixed {table : Table} (ht : Reachable table) (policy : Validation.Policy) :
    Reachable (Validation.validateTable policy true table).2
  | withoutScript {table : Table} (ht : Reachable table) (name : String) :
    Reachable (Script.remove table name).1
  | rebuilt {table : Table} (ht : Reachable table) : Reachable (.ofNodes table.nodes)

namespace Node

theorem Given.legible {node : Node} (h : node.Given) : node.Legible := by
  cases h with
  | built line number => exact legible_of_line_none number line
  | read h hn => exact (Table.legible_ofText h).legible_of_mem_nodes hn

end Node

/-! ### Edits -/

namespace Table.Legible

variable {table : Table}

theorem editNode (h : table.Legible) (number : Int) (edit : Node → Node)
    (he : ∀ node ∈ table.nodes, (edit node.touch).Legible) :
    (table.editNode number edit).Legible :=
  h.of_forall₂ rfl (Row.forall₂_editFirst _ _ table.rows) he

theorem editAt (h : table.Legible) (position : Nat) (edit : Node → Node)
    (he : ∀ node ∈ table.nodes, (edit node.touch).Legible) :
    (table.editAt position edit).Legible :=
  h.of_forall₂ rfl (Row.forall₂_editAt _ position table.rows) he

theorem editWhere (h : table.Legible) (p : Node → Bool) (edit : Node → Node)
    (he : ∀ node ∈ table.nodes, (edit node.touch).Legible) : (table.editWhere p edit).Legible := by
  refine h.of_forall₂ rfl (Row.forall₂_map_mapNode _ table.rows) ?_
  intro node hn
  -- Nodes that the condition leaves out keep their lines.
  show (if p node then edit node.touch else node).Legible
  split
  · exact he node hn
  · exact h.legible_of_mem_nodes hn

end Table.Legible

/-! ### Fixes -/

namespace Validation

theorem Fix.legible_apply {table : Table} (h : table.Legible) (fix : Fix) :
    (fix.apply table).1.Legible := by
  rw [fst_apply]
  apply h.editAt
  intro node hnode
  have hnumber : Text.InRange64 (fix.edit.run node).number := by
    rw [Edit.number_run]
    exact (h.legible_of_mem_nodes hnode).number_inRange
  rw [Edit.run_touch]
  exact Node.legible_of_line_none hnumber (fix.edit.line_run node)

theorem Fix.legible_applyAll (fixes : List Fix) {table : Table} (h : table.Legible) :
    (applyAll fixes table).1.Legible := by
  rw [fst_applyAll]
  induction fixes generalizing table with
  | nil => exact h
  | cons fix rest ih => exact ih (legible_apply h fix)

end Validation

namespace Script

theorem legible_silence {removal : Table × List Int} (h : removal.1.Legible) (position : Nat) :
    (silence removal position).1.Legible := by
  rw [silence]
  split
  · exact h
  · show (removal.1.editAt position (·.withCommand noop)).Legible
    refine h.editAt position _ fun node hnode => ?_
    exact Node.legible_of_line_none (h.legible_of_mem_nodes hnode).number_inRange rfl

/-- Removing a script edits nodes one after another. -/
theorem legible_remove {table : Table} (h : table.Legible) (name : String) :
    (remove table name).1.Legible := by
  have hpass : ∀ (positions : List Nat) (removal : Table × List Int), removal.1.Legible →
      (positions.foldl silence removal).1.Legible := by
    intro positions
    induction positions with
    | nil => exact fun _ hremoval => hremoval
    | cons position later ih => exact fun _ hremoval => ih _ (legible_silence hremoval position)
  simp only [remove]
  split
  · exact h
  · exact hpass _ (table, []) h

end Script

/-! ### Reachable tables -/

namespace Table

/-- Every operation leaves a table legible. -/
theorem Reachable.legible {table : Table} (h : Reachable table) : table.Legible := by
  induction h with
  | ofText h => exact legible_ofText h
  | ofNodes h => exact legible_ofNodes fun node hn => (h node hn).legible
  | push _ h ih => exact ih.push h.legible
  | editNode _ number h ih => exact ih.editNode number _ fun node hn => (h node hn).legible
  | editAt _ position h ih => exact ih.editAt position _ fun node hn => (h node hn).legible
  | editWhere _ p h ih => exact ih.editWhere p _ fun node hn => (h node hn).legible
  | fixed _ policy ih => exact Validation.Fix.legible_applyAll _ ih
  | withoutScript _ name ih => exact Script.legible_remove ih name
  | rebuilt _ ih => exact legible_ofNodes fun node hn => ih.legible_of_mem_nodes hn

/-- **Writing keeps every row.** A reachable table, whatever texts it holds, is written in one line
for the heading, one for each node and one for each unread line. Reading them gives nodes with the
same numbers and kinds in the same order, and as many unread lines. -/
theorem Reachable.rows_kept {table : Table} (h : Reachable table) :
    (Text.lines table.toText.toList).length = 1 + table.size + table.skipped.length ∧
      (Table.ofText table.toText).nodes.map Node.label = table.nodes.map Node.label ∧
      (Table.ofText table.toText).skipped.length = table.skipped.length :=
  ⟨h.legible.length_lines_toText, h.legible.map_label_nodes_ofText_toText,
    h.legible.length_skipped_ofText_toText⟩

/-- An unread line, a name with an open quote, and a message that looks like a row of its own. -/
theorem rows_kept_of_line_breaks :
    let table := ((ofText "h\n1,D,\"a\nx,,\n").editNode 1 fun node =>
      node.withMessage "b\r\n2,A,\"").push { number := 3, kind := .action, name := "\",\n4,D" }
    (Text.lines table.toText.toList).length = 4 ∧
      (ofText table.toText).nodes.map Node.label = [(1, .decision), (3, .action)] ∧
      (ofText table.toText).skipped.length = 1 := by
  intro table
  have hread : Reachable (ofText "h\n1,D,\"a\nx,,\n") := .ofText (by decide +kernel)
  have hedit : Reachable ((ofText "h\n1,D,\"a\nx,,\n").editNode 1 fun node =>
      node.withMessage "b\r\n2,A,\"") := by
    refine hread.editNode 1 fun node hn => .built rfl ?_
    exact (hread.legible.legible_of_mem_nodes hn).number_inRange
  have htable : Reachable table := hedit.push (.built rfl (by decide))
  obtain ⟨hlines, hlabels, hskipped⟩ := htable.rows_kept
  have hnodes : table.nodes.map Node.label = [(1, .decision), (3, .action)] := by decide +kernel
  have hsize : table.size = 2 := by decide +kernel
  have hunread : table.skipped.length = 1 := by decide +kernel
  rw [hsize, hunread] at hlines
  exact ⟨hlines, hlabels.trans hnodes, hskipped.trans hunread⟩

end Table

end DialogTable
