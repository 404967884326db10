import DialogTable.Column
import DialogTable.Text.Blank
import DialogTable.Text.Split
import DialogTable.Text.Numeral

/-!
# Nodes

A node is one row of a dialog table. The columns that the library interprets are held as typed
fields; the raw text of every column is kept beside them, so that a row can be written back with the
data it only carries along. A node that was read and not edited since also keeps its line.

A decision shows something to the user, an action runs a command. Numbers below zero and numbers
from `systemThreshold` on belong to the runtime.
-/

namespace DialogTable

/-- The two kinds of node. -/
inductive NodeKind
  | decision
  | action
  deriving DecidableEq, Repr, Inhabited

namespace NodeKind

/-- Reads a kind: its letter or its name, in any case and between blanks. -/
def read (raw : List Char) : Option NodeKind :=
  let word := String.ofList (Text.foldCase (Text.trim raw))
  if word = "d" ∨ word = "decision" then some decision
  else if word = "a" ∨ word = "action" then some action
  else none

/-- The letter that stands for a kind. -/
def letter : NodeKind → String
  | decision => "D"
  | action => "A"

end NodeKind

/-- An entry of a routing table: the result with this label leads to the target. -/
structure Route where
  label : String
  target : Int
  deriving DecidableEq, Repr, Inhabited

/-- Separates the entries of a next-node list and of a routing table. -/
def listSeparator : Char := '|'

/-- Separates the label of a route from its target. -/
def routeSeparator : Char := '~'

namespace Route

/-- The written form of a route. -/
def text (route : Route) : String :=
  route.label ++ routeSeparator.toString ++ toString route.target

/-- Reads one entry of a routing table. The label ends at the last separator. -/
def read (entry : List Char) : Option Route := do
  let (label, target) ← Text.splitLast routeSeparator entry
  let target ← Text.readNumber (Text.trim target)
  return { label := String.ofList (Text.trim label), target }

/-- Reads a routing table. Entries that are no route are dropped. -/
def readTable (raw : List Char) : List Route :=
  (Text.splitAt (· = listSeparator) raw).filterMap fun entry => read (Text.trim entry)

end Route

/-- Node numbers from here on belong to the runtime. -/
def systemThreshold : Int := 99990

/-- The numbers that the runtime owns. -/
def IsSystemNumber (number : Int) : Prop :=
  number < 0 ∨ systemThreshold ≤ number

instance (number : Int) : Decidable (IsSystemNumber number) :=
  inferInstanceAs (Decidable (_ ∨ _))

/-- One row of a dialog table. -/
structure Node where
  number : Int
  kind : NodeKind
  name : String
  message : Option String := none
  richContentType : Option String := none
  richContent : Option String := none
  nextNodes : List Int := []
  command : Option String := none
  routes : List Route := []
  /-- The raw texts of the columns. A missing cell is empty; cells behind the last column are
  kept. -/
  cells : List String := List.replicate Column.all.length ""
  /-- The line of a node that has not been edited since it was read. -/
  line : Option String := none
  deriving DecidableEq, Repr, Inhabited

namespace Node

/-! ### Building -/

/-- Sets the message. -/
def withMessage (node : Node) (message : String) : Node :=
  { node with message := some message }

/-- Replaces the next-node list. -/
def withNextNodes (node : Node) (next : List Int) : Node :=
  { node with nextNodes := next }

/-- Sets the command. -/
def withCommand (node : Node) (command : String) : Node :=
  { node with command := some command }

/-- Adds a route behind the others. -/
def withRoute (node : Node) (label : String) (target : Int) : Node :=
  { node with routes := node.routes ++ [{ label, target }] }

/-- Sets a rich-content payload and its type. -/
def withRichContent (node : Node) (type payload : String) : Node :=
  { node with richContentType := some type, richContent := some payload }

/-- Sets the raw text of one column. -/
def withCell (node : Node) (column : Column) (text : String) : Node :=
  { node with cells := node.cells.set column.index text }

/-- Forgets the line that the node was read from, so that its row is written anew. -/
def touch (node : Node) : Node :=
  { node with line := none }

/-! ### Questions -/

/-- Whether the runtime owns the node. -/
def IsSystem (node : Node) : Prop :=
  IsSystemNumber node.number

instance (node : Node) : Decidable node.IsSystem :=
  inferInstanceAs (Decidable (IsSystemNumber _))

/-- Whether the row will be written as it was read. -/
def isPristine (node : Node) : Bool :=
  node.line.isSome

/-- The raw text of a column. -/
def cell (node : Node) (column : Column) : String :=
  node.cells.getD column.index ""

/-- The tokens of a column, between commas, bars and blanks. -/
def tokens (node : Node) (column : Column) : List String :=
  (Text.tokens (fun c => c = ',' || c = listSeparator || Text.isBlank c)
    (node.cell column).toList).map String.ofList

/-- The command without the blanks around it. A blank command counts as none. -/
def commandName (node : Node) : Option String :=
  node.command.bind fun command => Text.unlessBlank (Text.trimmed command)

/-! ### Reading the interpreted columns -/

/-- Reads a next-node list. Entries that are no number are dropped. -/
def readNextNodes (raw : List Char) : List Int :=
  (Text.splitAt (fun c => c = listSeparator || c = ',') raw).filterMap fun entry =>
    Text.readNumber (Text.trim entry)

/-- The text of a column as the typed fields give it. -/
def columnText (node : Node) : Column → String
  | .number => toString node.number
  | .kind => node.kind.letter
  | .name => node.name
  | .message => node.message.getD ""
  | .richContentType => node.richContentType.getD ""
  | .richContent => node.richContent.getD ""
  | .nextNodes => Text.join listSeparator.toString (node.nextNodes.map toString)
  | .command => node.command.getD ""
  | .whatNext => Text.join listSeparator.toString (node.routes.map Route.text)
  | column => node.cell column

/-- The cells to write, the interpreted ones taken from the typed fields. -/
def writtenCells (node : Node) : List String :=
  Column.all.map node.columnText ++ node.cells.drop Column.all.length

/-! ### Small facts -/

theorem line_touch (node : Node) : node.touch.line = none := rfl

theorem columnText_touch (node : Node) (column : Column) :
    node.touch.columnText column = node.columnText column := by
  cases column <;> rfl

theorem writtenCells_touch (node : Node) : node.touch.writtenCells = node.writtenCells := by
  rw [writtenCells, writtenCells, funext (columnText_touch node), touch]

theorem length_writtenCells (node : Node) :
    node.writtenCells.length = 26 + (node.cells.length - 26) := by
  simp [writtenCells, Column.length_all]

end Node

end DialogTable
