import DialogTable.Node
import DialogTable.Cell

/-!
# Lines of nodes

A line that carries a node starts with an integer and names a known kind. Any other line is refused
with the reason. A line may have fewer cells than there are columns, or more.
-/

namespace DialogTable

/-- Why a line carries no node. -/
inductive SkipReason
  | invalidNumber (raw : String)
  | unknownKind (raw : String)
  deriving DecidableEq, Repr

/-- The wording of a reason. -/
def SkipReason.message : SkipReason → String
  | invalidNumber raw => s!"node number '{raw}' is not an integer"
  | unknownKind raw => s!"unknown node type '{raw}'"

namespace Node

/-- The node with the given cells. Message and payload keep their blanks, and count as absent where
they have nothing else; a command is trimmed. -/
def ofCells (number : Int) (kind : NodeKind) (cells : List String) (line : String) : Node :=
  let raw (column : Column) : String := cells.getD column.index ""
  { number, kind
    name := raw .name
    message := Text.unlessBlank (raw .message)
    richContentType := Text.unlessBlank (raw .richContentType)
    richContent := Text.unlessBlank (raw .richContent)
    nextNodes := readNextNodes (raw .nextNodes).toList
    command := (Text.unlessBlank (raw .command)).map Text.trimmed
    routes := Route.readTable (raw .whatNext).toList
    cells := cells ++ List.replicate (Column.all.length - cells.length) ""
    line := some line }

/-- Reads a line. The number is checked before the kind. -/
def ofLine (line : String) : Except SkipReason Node :=
  let cells := (Cell.split line.toList).map String.ofList
  let rawNumber := cells.getD Column.number.index ""
  let rawKind := cells.getD Column.kind.index ""
  match Text.readNumber (Text.trim rawNumber.toList) with
  | none => .error (.invalidNumber rawNumber)
  | some number =>
    match NodeKind.read rawKind.toList with
    | none => .error (.unknownKind rawKind)
    | some kind => .ok (ofCells number kind cells line)

/-- The line that stands for a node in a written table. -/
def toLine (node : Node) : String :=
  node.line.getD (Cell.encodeRow node.writtenCells)

/-! ### Small facts -/

theorem toLine_touch (node : Node) : node.touch.toLine = Cell.encodeRow node.writtenCells := by
  rw [toLine, line_touch, Option.getD_none, writtenCells_touch]

theorem toLine_ofCells (number : Int) (kind : NodeKind) (cells : List String) (line : String) :
    (ofCells number kind cells line).toLine = line := rfl

theorem toLine_ofLine {line : String} {node : Node} (h : ofLine line = .ok node) :
    node.toLine = line := by
  unfold ofLine at h
  dsimp only at h
  split at h
  · exact nomatch h
  · split at h
    · exact nomatch h
    · rw [← Except.ok.inj h, toLine_ofCells]

end Node

end DialogTable
