/-!
# Columns

A dialog table has twenty-six columns in a fixed order. Each column has a heading, which stands in
the first line of a table and in messages, and a key, which names it in data.
-/

namespace DialogTable

/-- The columns in file order. -/
inductive Column
  | number
  | kind
  | name
  | intent
  | entityType
  | entity
  | nluDisabled
  | nextNodes
  | message
  | richContentType
  | richContent
  | answerRequired
  | behaviors
  | command
  | description
  | output
  | nodeInput
  | paramInput
  | decisionVariable
  | whatNext
  | nodeTags
  | skillTag
  | variableName
  | platformFlag
  | flows
  | cssClass
  deriving DecidableEq, Repr, Inhabited

namespace Column

/-- Every column, in file order. -/
def all : List Column :=
  [number, kind, name, intent, entityType, entity, nluDisabled, nextNodes, message, richContentType,
    richContent, answerRequired, behaviors, command, description, output, nodeInput, paramInput,
    decisionVariable, whatNext, nodeTags, skillTag, variableName, platformFlag, flows, cssClass]

/-- The position of a column in a row, from zero. -/
def index (column : Column) : Nat :=
  column.ctorIdx

/-- The heading of a column. -/
def heading : Column → String
  | number => "Node Number"
  | kind => "Node Type"
  | name => "Node Name"
  | intent => "Intent"
  | entityType => "Entity Type"
  | entity => "Entity"
  | nluDisabled => "NLU Disabled?"
  | nextNodes => "Next Nodes"
  | message => "Message"
  | richContentType => "Rich Asset Type"
  | richContent => "Rich Asset Content"
  | answerRequired => "Answer Required?"
  | behaviors => "Behaviors"
  | command => "Command"
  | description => "Description"
  | output => "Output"
  | nodeInput => "Node Input"
  | paramInput => "Parameter Input"
  | decisionVariable => "Decision Variable"
  | whatNext => "What Next?"
  | nodeTags => "Node Tags"
  | skillTag => "Skill Tag"
  | variableName => "Variable"
  | platformFlag => "Platform Flag"
  | flows => "Flows"
  | cssClass => "CSS Classname"

/-- The key of a column in data. -/
def key : Column → String
  | number => "number"
  | kind => "kind"
  | name => "name"
  | intent => "intent"
  | entityType => "entity_type"
  | entity => "entity"
  | nluDisabled => "nlu_disabled"
  | nextNodes => "next_nodes"
  | message => "message"
  | richContentType => "rich_content_type"
  | richContent => "rich_content"
  | answerRequired => "answer_required"
  | behaviors => "behaviors"
  | command => "command"
  | description => "description"
  | output => "output"
  | nodeInput => "node_input"
  | paramInput => "param_input"
  | decisionVariable => "decision_variable"
  | whatNext => "what_next"
  | nodeTags => "node_tags"
  | skillTag => "skill_tag"
  | variableName => "variable"
  | platformFlag => "platform_flag"
  | flows => "flows"
  | cssClass => "css_class"

/-- The column with a key. -/
def ofKey? (key : String) : Option Column :=
  all.find? fun column => column.key == key

/-- The first line of a new table: the headings between commas. -/
def headingLine : String :=
  ",".intercalate (all.map heading)

/-! ### Small facts -/

theorem length_all : all.length = 26 := rfl

theorem getElem?_all_index (column : Column) : all[column.index]? = some column := by
  cases column <;> rfl

theorem mem_all (column : Column) : column ∈ all :=
  List.mem_of_getElem? (getElem?_all_index column)

end Column

end DialogTable
