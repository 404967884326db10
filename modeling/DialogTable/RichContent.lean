import DialogTable.Json
import DialogTable.Text.Blank

/-!
# Rich content

A node may show more than a message: a carousel of cards, a list to pick from, a date picker and so
on. The payload is JSON, and its choices may lead to other nodes. A payload that is not JSON, or is
neither an array nor an object, counts as one without choices.

A payload may also have been written with every quote doubled.
-/

namespace DialogTable

/-- The kinds of content that a runtime shows. -/
inductive ContentKind
  | carousel
  | listPicker
  | datePicker
  | fileUpload
  | freeText
  | generic
  deriving DecidableEq, Repr

/-- The kind that a type tag names. Only the letters and digits of a tag count, in any case. -/
def ContentKind.ofTag (tag : List Char) : ContentKind :=
  match String.ofList (Text.foldCase (tag.filter Char.isAlphanum)) with
  | "carousel" => carousel
  | "listpicker" | "buttons" | "quickreplies" => listPicker
  | "datepicker" | "calendar" => datePicker
  | "fileupload" | "upload" => fileUpload
  | "freetext" | "textbox" | "text" => freeText
  | _ => generic

/-- Something to choose, with the node that it leads to if it leads to one. -/
structure Choice where
  label : String
  destination : Option Int
  deriving DecidableEq, Repr

/-- A card of a carousel. -/
structure Card where
  title : String
  buttons : List Choice
  deriving DecidableEq, Repr

namespace Choice

/-- The keys of a label; the first one that holds a text counts. -/
def labelKeys : List String := ["label", "title", "text"]

/-- The keys of a destination; the first one that holds a number counts. -/
def destinationKeys : List String := ["dest", "destination", "node", "action"]

/-- The keys of collections of choices. -/
def collectionKeys : List String := ["options", "buttons", "choices"]

/-- The first text under the keys of a label. -/
def labelOf (value : Json) : Option String :=
  labelKeys.findSome? fun key => (value.get? key).bind Json.string?

/-- A node number, written as a number or as a text. -/
def numberOf : Json → Option Int
  | .string text => Text.readNumber (Text.trim text.toList)
  | value => value.int64?

/-- The first number under the keys of a destination. -/
def destinationOf (value : Json) : Option Int :=
  destinationKeys.findSome? fun key => (value.get? key).bind numberOf

/-- Whether one of the keys is there, whatever it holds. -/
def hasKey (keys : List String) (value : Json) : Bool :=
  keys.any fun key => (value.get? key).isSome

/-- Reads an object as a choice. It has a label or a key for a destination, and is no collection. -/
def ofJson? (value : Json) : Option Choice :=
  if hasKey collectionKeys value then none
  else match labelOf value with
    | some label => some { label, destination := destinationOf value }
    | none =>
      if hasKey destinationKeys value then some { label := "", destination := destinationOf value }
      else none

/-- The choices among the items under the keys of collections, key by key. -/
def inCollections (members : List (String × Json)) : List Choice :=
  collectionKeys.flatMap fun key =>
    match members.lookup key with
    | some (.array items) => items.filterMap ofJson?
    | _ => []

mutual

/-- The choices of a payload. In an array an item that is no choice is searched in turn; in an
object the collections come first and then the other members. Items of a collection are not
searched. -/
def collect : Json → List Choice
  | .array items => collectItems items
  | .object members => inCollections members ++ collectMembers members
  | _ => []

/-- The choices in the items of an array. -/
def collectItems : List Json → List Choice
  | [] => []
  | item :: rest =>
    (match ofJson? item with
      | some choice => [choice]
      | none => collect item) ++ collectItems rest

/-- The choices in the members of an object that are no collections. -/
def collectMembers : List (String × Json) → List Choice
  | [] => []
  | (key, value) :: rest =>
    (if key ∈ collectionKeys then [] else collect value) ++ collectMembers rest

end

end Choice

namespace Card

/-- Reads a card. -/
def ofJson (value : Json) : Card :=
  { title := (Choice.labelOf value).getD "", buttons := Choice.collect value }

/-- The list of cards of a payload: the payload itself, or the member `cards` or else `items`. -/
def listOf : Json → List Json
  | .array items => items
  | .object members =>
    match (members.lookup "cards").or (members.lookup "items") with
    | some (.array items) => items
    | _ => []
  | _ => []

/-- The cards of a payload. What is no object is no card. -/
def allOf (value : Json) : List Card :=
  (listOf value).filterMap fun item =>
    match item with
    | .object members => some (ofJson (.object members))
    | _ => none

end Card

/-- The content of a payload. -/
inductive RichContent
  | carousel (cards : List Card)
  | listPicker (choices : List Choice) (multiSelect : Bool)
  | datePicker
  | fileUpload
  | freeText
  | generic (value : Json)
  deriving Repr

namespace RichContent

/-- Makes one quote of two that stand side by side. -/
def undouble : List Char → List Char
  | '"' :: '"' :: rest => '"' :: undouble rest
  | c :: rest => c :: undouble rest
  | [] => []

/-- Reads a payload, as it stands or else with its doubled quotes made single. -/
def decodeWith (read : String → Option Json) (payload : List Char) : Option Json :=
  ((read (.ofList payload)).or (read (.ofList (undouble payload)))).filter Json.isBracketed

/-- The content of a kind with a value. -/
def ofValue (kind : ContentKind) (value : Option Json) : RichContent :=
  match kind with
  | .carousel => carousel ((value.map Card.allOf).getD [])
  | .listPicker =>
    listPicker ((value.map Choice.collect).getD [])
      (((value.bind (Json.get? "multi_select")).bind Json.bool?).getD false)
  | .datePicker => datePicker
  | .fileUpload => fileUpload
  | .freeText => freeText
  | .generic => generic (value.getD .null)

/-- The content of a type tag and a payload, by a reader of JSON. There is none if both are missing
or blank; without a tag the content is generic. -/
def parseWith (read : String → Option Json) (tag payload : Option String) : Option RichContent :=
  let payload := payload.bind fun text => Text.unlessBlank (Text.trimmed text)
  let kind := (tag.bind Text.unlessBlank).map fun tag => ContentKind.ofTag (Text.trim tag.toList)
  if payload = none ∧ kind = none then none
  else some (ofValue (kind.getD .generic) (payload.bind fun text => decodeWith read text.toList))

/-- The content of a type tag and a payload. -/
def parse (tag payload : Option String) : Option RichContent :=
  parseWith Json.ofText? tag payload

/-- The choices, in the order of declaration. -/
def choices : RichContent → List Choice
  | carousel cards => cards.flatMap (·.buttons)
  | listPicker choices _ => choices
  | generic value => Choice.collect value
  | datePicker | fileUpload | freeText => []

/-- The choices that lead to a node. -/
def destinations (content : RichContent) : List (String × Int) :=
  content.choices.filterMap fun choice =>
    choice.destination.map fun target => (choice.label, target)

end RichContent

end DialogTable
