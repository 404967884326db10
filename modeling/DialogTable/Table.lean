import DialogTable.Node.Line

/-!
# Dialog tables

A table is a heading line and rows. A row is a node or a line that could not be read as one; both
keep their place, so that nothing is lost when the table is written. Blank lines are dropped.

`ofText` never fails. `toText` writes rows that were not edited exactly as they were read.
-/

namespace DialogTable

/-- A line that is no node, with its position in the text it was read from. -/
structure SkippedLine where
  /-- Counted from one, blank lines included. -/
  lineNumber : Nat
  line : String
  reason : SkipReason
  deriving DecidableEq, Repr

/-- A row below the heading. -/
inductive Row
  | node (node : Node)
  | skipped (skipped : SkippedLine)
  deriving Repr

namespace Row

/-- The node of a row. -/
def node? : Row → Option Node
  | node n => some n
  | skipped _ => none

/-- The unread line of a row. -/
def skipped? : Row → Option SkippedLine
  | node _ => none
  | skipped s => some s

/-- The line that is written for a row. -/
def toLine : Row → String
  | node n => n.toLine
  | skipped s => s.line

/-- Reads a row. -/
def ofLine (lineNumber : Nat) (line : String) : Row :=
  match Node.ofLine line with
  | .ok n => node n
  | .error reason => skipped { lineNumber, line, reason }

/-- Edits the first node that satisfies a condition. -/
def editFirst (p : Node → Bool) (edit : Node → Node) : List Row → List Row
  | [] => []
  | skipped s :: rest => skipped s :: editFirst p edit rest
  | node n :: rest => if p n then node (edit n) :: rest else node n :: editFirst p edit rest

/-- Edits the node at a position, counted among the nodes. -/
def editAt (edit : Node → Node) : Nat → List Row → List Row
  | _, [] => []
  | position, skipped s :: rest => skipped s :: editAt edit position rest
  | 0, node n :: rest => node (edit n) :: rest
  | position + 1, node n :: rest => node n :: editAt edit position rest

/-- Edits the node of a row. -/
def mapNode (edit : Node → Node) : Row → Row
  | node n => node (edit n)
  | skipped s => skipped s

end Row

/-- A heading line and rows. A text without a line that says something has no heading. -/
structure Table where
  heading : Option String := none
  rows : List Row := []
  deriving Repr, Inhabited

namespace Table

/-- The nodes, in row order. -/
def nodes (table : Table) : List Node :=
  table.rows.filterMap Row.node?

/-- The lines that were not read, in row order. -/
def skipped (table : Table) : List SkippedLine :=
  table.rows.filterMap Row.skipped?

/-- The number of nodes. -/
def size (table : Table) : Nat :=
  table.nodes.length

/-- The lines of a text that say something, each with its number. -/
def numberedLines (text : String) : List (Nat × String) :=
  ((Text.lines text.toList).zipIdx 1).filterMap fun (line, lineNumber) =>
    if Text.allBlank line then none else some (lineNumber, String.ofList line)

/-- Reads a table. The first line that says something is the heading, whatever it says. -/
def ofText (text : String) : Table :=
  match numberedLines text with
  | [] => {}
  | (_, heading) :: lines =>
    { heading := some heading
      rows := lines.map fun (lineNumber, line) => Row.ofLine lineNumber line }

/-- A new table with the standard heading. -/
def ofNodes (nodes : List Node) : Table :=
  { heading := some Column.headingLine, rows := nodes.map Row.node }

/-- Writes a table, one line a row. -/
def toText (table : Table) : String :=
  Text.closeLines (table.heading.getD Column.headingLine :: table.rows.map Row.toLine)

/-- The first node with a number. -/
def find? (table : Table) (number : Int) : Option Node :=
  table.nodes.find? (·.number = number)

/-- Adds a node at the end. -/
def push (table : Table) (node : Node) : Table :=
  { table with rows := table.rows ++ [.node node] }

/-- Edits the first node with a number. The row is written anew, whether the edit changes it or
not. -/
def editNode (table : Table) (number : Int) (edit : Node → Node) : Table :=
  { table with
    rows := Row.editFirst (fun node => node.number = number) (fun node => edit node.touch)
      table.rows }

/-- Edits the node at a position among the nodes. The row is written anew. -/
def editAt (table : Table) (position : Nat) (edit : Node → Node) : Table :=
  { table with rows := Row.editAt (fun node => edit node.touch) position table.rows }

/-- Edits the nodes that satisfy a condition. Their rows are written anew. -/
def editWhere (table : Table) (p : Node → Bool) (edit : Node → Node) : Table :=
  { table with
    rows := table.rows.map (Row.mapNode fun node => if p node then edit node.touch else node) }

/-- Has every row written anew. -/
def touchAll (table : Table) : Table :=
  table.editWhere (fun _ => true) id

/-! ### Small facts -/

theorem nodes_ofNodes (nodes : List Node) : (ofNodes nodes).nodes = nodes := by
  simp only [Table.nodes, ofNodes]
  induction nodes with
  | nil => rfl
  | cons n rest ih => simp [Row.node?, ih]

theorem length_rows (table : Table) :
    table.rows.length = table.nodes.length + table.skipped.length := by
  simp only [Table.nodes, skipped]
  induction table.rows with
  | nil => rfl
  | cons row rest ih =>
    cases row <;> simp only [List.filterMap_cons, Row.node?, Row.skipped?, List.length_cons, ih] <;>
      omega

end Table

end DialogTable
