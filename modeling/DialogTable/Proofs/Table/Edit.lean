import Mathlib.Data.List.Forall2
import DialogTable.Proofs.Table.Reread

/-!
# Edited tables

An edit leaves the heading and the unread lines alone, and every node it touches is written anew.
`Edits` is what all edits of a table have in common; it keeps a table faithful and its lines free of
line breaks. `nodes_editAt` and its like say what becomes of the nodes.
-/

namespace DialogTable

namespace Row

/-- A row that was left alone, or whose node was edited. -/
def EditOf (edit : Node → Node) (old new : Row) : Prop :=
  new = old ∨ ∃ n, old = node n ∧ new = node (edit n)

theorem forall₂_editOf_self (edit : Node → Node) (rows : List Row) :
    List.Forall₂ (EditOf edit) rows rows :=
  List.forall₂_same.2 fun _ _ => .inl rfl

theorem forall₂_editAt (edit : Node → Node) (position : Nat) (rows : List Row) :
    List.Forall₂ (EditOf edit) rows (editAt edit position rows) := by
  induction rows generalizing position with
  | nil => cases position <;> exact .nil
  | cons first rest ih =>
    cases first with
    | skipped s => exact .cons (.inl rfl) (ih position)
    | node n =>
      cases position with
      | zero => exact .cons (.inr ⟨n, rfl, rfl⟩) (forall₂_editOf_self edit rest)
      | succ position => exact .cons (.inl rfl) (ih position)

theorem forall₂_editFirst (p : Node → Bool) (edit : Node → Node) (rows : List Row) :
    List.Forall₂ (EditOf edit) rows (editFirst p edit rows) := by
  induction rows with
  | nil => exact .nil
  | cons first rest ih =>
    cases first with
    | skipped s => exact .cons (.inl rfl) ih
    | node n =>
      rw [editFirst]
      split
      · exact .cons (.inr ⟨n, rfl, rfl⟩) (forall₂_editOf_self edit rest)
      · exact .cons (.inl rfl) ih

theorem forall₂_map_mapNode (edit : Node → Node) (rows : List Row) :
    List.Forall₂ (EditOf edit) rows (rows.map (mapNode edit)) := by
  induction rows with
  | nil => exact .nil
  | cons first rest ih =>
    cases first with
    | skipped s => exact .cons (.inl rfl) ih
    | node n => exact .cons (.inr ⟨n, rfl, rfl⟩) ih

theorem editOf_of_mem {edit : Node → Node} {rows edited : List Row}
    (h : List.Forall₂ (EditOf edit) rows edited) {row : Row} (hrow : row ∈ edited) :
    ∃ old ∈ rows, EditOf edit old row := by
  induction h with
  | nil => exact absurd hrow List.not_mem_nil
  | @cons old new rest editedRest hhead htail ih =>
    rcases List.mem_cons.1 hrow with rfl | hrow
    · exact ⟨old, List.mem_cons_self, hhead⟩
    · obtain ⟨other, hmem, hother⟩ := ih hrow
      exact ⟨other, List.mem_cons_of_mem old hmem, hother⟩

theorem filterMap_node?_editAt (edit : Node → Node) (position : Nat) (rows : List Row) :
    (editAt edit position rows).filterMap node? = (rows.filterMap node?).modify position edit := by
  induction rows generalizing position with
  | nil => cases position <;> rfl
  | cons first rest ih =>
    cases first with
    | skipped s => exact ih position
    | node n =>
      cases position with
      | zero => rfl
      | succ position => exact congrArg (n :: ·) (ih position)

/-- An edit at a position is asked for the node at that position only. -/
theorem editAt_congr {edit other : Node → Node} {position : Nat} {rows : List Row}
    (h : ∀ node, (rows.filterMap node?)[position]? = some node → edit node = other node) :
    editAt edit position rows = editAt other position rows := by
  induction rows generalizing position with
  | nil => cases position <;> rfl
  | cons first rest ih =>
    cases first with
    | skipped s => exact congrArg (skipped s :: ·) (ih h)
    | node n =>
      cases position with
      | zero => exact congrArg (fun edited => node edited :: rest) (h n rfl)
      | succ position => exact congrArg (node n :: ·) (ih h)

theorem editAt_id (position : Nat) (rows : List Row) : editAt id position rows = rows := by
  induction rows generalizing position with
  | nil => cases position <;> rfl
  | cons first rest ih =>
    cases first with
    | skipped s => exact congrArg (skipped s :: ·) (ih position)
    | node n =>
      cases position with
      | zero => rfl
      | succ position => exact congrArg (node n :: ·) (ih position)

/-- Rows are known from their nodes and from the unread lines in their places. -/
theorem eq_of_nodes_eq {a b : List Row} (hunread : a.map skipped? = b.map skipped?)
    (hnodes : a.filterMap node? = b.filterMap node?) : a = b := by
  induction a generalizing b with
  | nil => exact (List.map_eq_nil_iff.1 hunread.symm).symm
  | cons first rest ih =>
    cases b with
    | nil => cases hunread
    | cons other others =>
      rw [List.map_cons, List.map_cons, List.cons.injEq] at hunread
      cases first with
      | node n =>
        cases other with
        | node m =>
          obtain ⟨hhead, htail⟩ := List.cons.inj hnodes
          rw [hhead, ih hunread.2 htail]
        | skipped s => cases hunread.1
      | skipped s =>
        cases other with
        | node m => cases hunread.1
        | skipped t => rw [Option.some.inj hunread.1, ih hunread.2 hnodes]

theorem map_skipped?_editAt (edit : Node → Node) (position : Nat) (rows : List Row) :
    (editAt edit position rows).map skipped? = rows.map skipped? := by
  induction rows generalizing position with
  | nil => cases position <;> rfl
  | cons first rest ih =>
    cases first with
    | skipped s => exact congrArg (some s :: ·) (ih position)
    | node n =>
      cases position with
      | zero => rfl
      | succ position => exact congrArg (none :: ·) (ih position)

theorem map_skipped?_map_mapNode (edit : Node → Node) (rows : List Row) :
    (rows.map (mapNode edit)).map skipped? = rows.map skipped? := by
  rw [List.map_map]
  apply List.map_congr_left
  intro row _
  cases row <;> rfl

theorem filterMap_node?_map_mapNode (edit : Node → Node) (rows : List Row) :
    (rows.map (mapNode edit)).filterMap node? = (rows.filterMap node?).map edit := by
  rw [List.filterMap_map, List.map_filterMap]
  apply List.filterMap_congr
  intro row _
  cases row <;> rfl

end Row

namespace Table

theorem mem_nodes {table : Table} {node : Node} : node ∈ table.nodes ↔ .node node ∈ table.rows := by
  rw [Table.nodes, List.mem_filterMap]
  constructor
  · rintro ⟨row, hrow, heq⟩
    cases row with
    | node n =>
      obtain rfl := Option.some.inj heq
      exact hrow
    | skipped s => cases heq
  · exact fun h => ⟨.node node, h, rfl⟩

theorem editAt_congr {table : Table} {position : Nat} {edit other : Node → Node}
    (h : ∀ node, table.nodes[position]? = some node → edit node.touch = other node.touch) :
    table.editAt position edit = table.editAt position other := by
  rw [editAt, Row.editAt_congr h, editAt]

/-- Behind the last node there is nothing to edit. -/
theorem editAt_eq_self {table : Table} {position : Nat} (h : table.nodes[position]? = none)
    (edit : Node → Node) : table.editAt position edit = table := by
  have hrows : Row.editAt (fun node => edit node.touch) position table.rows = table.rows :=
    (Row.editAt_congr fun _ hnode => nomatch h.symm.trans hnode).trans (Row.editAt_id _ _)
  rw [editAt, hrows]

theorem nodes_editAt (table : Table) (position : Nat) (edit : Node → Node) :
    (table.editAt position edit).nodes =
      table.nodes.modify position fun node => edit node.touch :=
  Row.filterMap_node?_editAt _ position table.rows

theorem Faithful.faithful_of_mem_nodes {table : Table} (h : table.Faithful) {node : Node}
    (hn : node ∈ table.nodes) : node.Faithful :=
  h.rows (.node node) (mem_nodes.1 hn)

theorem Faithful.regular {table : Table} (h : table.Faithful) {node : Node}
    (hn : node ∈ table.nodes) : node.Regular :=
  (h.faithful_of_mem_nodes hn).regular

/-- A table that was edited: each row is an old one or a node that will be written anew. -/
structure Edits (before after : Table) : Prop where
  heading : after.heading = before.heading
  rows : ∀ row ∈ after.rows, row ∈ before.rows ∨
    ∃ node, row = .node node ∧ node.Regular ∧ node.line = none

namespace Edits

theorem refl (table : Table) : Edits table table :=
  ⟨rfl, fun _ h => .inl h⟩

theorem trans {a b c : Table} (hab : Edits a b) (hbc : Edits b c) : Edits a c where
  heading := hbc.heading.trans hab.heading
  rows row h := (hbc.rows row h).elim (hab.rows row) .inr

theorem faithful {before after : Table} (h : Edits before after) (hf : before.Faithful) :
    after.Faithful where
  heading heading hh := hf.heading heading (h.heading ▸ hh)
  rows row hrow := by
    rcases h.rows row hrow with hold | ⟨node, rfl, hr, hline⟩
    · exact hf.rows row hold
    · exact Node.faithful_of_line_none hr hline

/-- A line of an edited table is an old one or the row of a node that is written anew. -/
theorem mem_writtenLines {before after : Table} (h : Edits before after) {line : String}
    (hline : line ∈ after.writtenLines) :
    line ∈ before.writtenLines ∨
      ∃ node ∈ after.nodes, node.line = none ∧ line = Cell.encodeRow node.writtenCells := by
  rcases List.mem_cons.1 hline with rfl | hline
  · rw [h.heading]
    exact .inl List.mem_cons_self
  · obtain ⟨row, hrow, rfl⟩ := List.mem_map.1 hline
    rcases h.rows row hrow with hold | ⟨node, rfl, -, hnone⟩
    · exact .inl (List.mem_cons_of_mem _ (List.mem_map_of_mem hold))
    · rw [Row.toLine, Node.toLine, hnone, Option.getD_none]
      exact .inr ⟨node, mem_nodes.2 hrow, hnone, rfl⟩

/-- Rows that are written anew bring no line breaks. -/
theorem mem_writtenLines_or_oneLine {before after : Table} (h : Edits before after) {line : String}
    (hline : line ∈ after.writtenLines) :
    line ∈ before.writtenLines ∨ Cell.OneLine line.toList := by
  refine (h.mem_writtenLines hline).imp_right ?_
  rintro ⟨node, -, -, rfl⟩
  rw [Cell.toList_encodeRow]
  exact Cell.oneLine_row _

theorem oneLine_of_mem_writtenLines {before after : Table} (h : Edits before after)
    (hl : ∀ line ∈ before.writtenLines, Cell.OneLine line.toList) {line : String}
    (hline : line ∈ after.writtenLines) : Cell.OneLine line.toList :=
  (h.mem_writtenLines_or_oneLine hline).elim (hl line) id

theorem noReturns {before after : Table} (h : Edits before after) (hr : before.NoReturns) :
    after.NoReturns := by
  intro line hline
  rcases h.mem_writtenLines_or_oneLine hline with hold | hone
  · exact hr line hold
  · exact hone.getLast?_ne_return

end Edits

/-- Editing rows so that their nodes will be written anew is an edit of the table. -/
theorem edits_of_forall₂ {before after : Table} {edit : Node → Node}
    (hheading : after.heading = before.heading)
    (hrows : List.Forall₂ (Row.EditOf edit) before.rows after.rows)
    (h : ∀ node ∈ before.nodes, (edit node).Regular ∧ (edit node).line = none) :
    Edits before after where
  heading := hheading
  rows row hrow := by
    obtain ⟨old, hold, rfl | ⟨node, rfl, rfl⟩⟩ := Row.editOf_of_mem hrows hrow
    · exact .inl hold
    · exact .inr ⟨_, rfl, h node (mem_nodes.2 hold)⟩

theorem edits_editAt {table : Table} {position : Nat} {edit : Node → Node}
    (h : ∀ node ∈ table.nodes, (edit node.touch).Regular ∧ (edit node.touch).line = none) :
    Edits table (table.editAt position edit) :=
  edits_of_forall₂ rfl (Row.forall₂_editAt _ position table.rows) h

theorem edits_editNode_id {table : Table} (h : table.Faithful) (number : Int) :
    Edits table (table.editNode number id) :=
  edits_of_forall₂ rfl (Row.forall₂_editFirst _ _ table.rows)
    fun _ hn => ⟨(h.regular hn).touch, rfl⟩

theorem edits_touchAll {table : Table} (h : table.Faithful) : Edits table table.touchAll :=
  edits_of_forall₂ rfl (Row.forall₂_map_mapNode _ table.rows)
    fun _ hn => ⟨(h.regular hn).touch, rfl⟩

end Table

end DialogTable
