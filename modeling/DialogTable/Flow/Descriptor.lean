import DialogTable.Flow
import DialogTable.Json.Decode
import DialogTable.Json.Printer

/-!
# Flow descriptors

Flows are described in JSON by an array of records. The description may be left out.
-/

namespace DialogTable.Flow

/-- The fields of a descriptor with their spellings. -/
def fieldNames : List (List String) :=
  [["name"], ["description"], ["start_node", "startNode"]]

/-- Reads a descriptor. -/
def ofDocument? (document : Json.Document) : Option Flow := do
  let fields ← document.fields? fieldNames
  let name ← Json.Document.required fields "name" Json.Document.text?
  let description ← Json.Document.withDefault fields "description" Json.Document.text? ""
  let start ← Json.Document.required fields "start_node"
    (Json.Document.int? fun n => decide (Text.InRange64 n))
  return { name, description, start }

/-- Reads a list of descriptors. -/
def listOfText? (text : String) : Option (List Flow) :=
  (Json.Document.ofText? text).bind (Json.Document.list? ofDocument?)

/-- The descriptor of a flow. -/
def toJson (flow : Flow) : Json :=
  .object [("name", .string flow.name), ("description", .string flow.description),
    ("start_node", .ofInt flow.start)]

/-- Writes a list of descriptors, indented. -/
def listToText (flows : List Flow) : String :=
  (Json.array (flows.map toJson)).printIndented 0

end DialogTable.Flow
