import DialogTable.Json.Document

/-!
# JSON values

A value has its objects sorted by key, each key once. A document has a value if its brackets nest at
most 127 deep, every quoted text is a text and every number is finite; of a repeated key the last
member counts.
-/

namespace DialogTable

/-- A JSON value. -/
inductive Json
  | null
  | bool (b : Bool)
  | number (n : Json.Number)
  | string (text : String)
  | array (items : List Json)
  /-- The keys are in ascending order. -/
  | object (members : List (String × Json))
  deriving Repr, Inhabited

namespace Json

/-- Sets a member of an object: in place if the key is there, else at its place in the order. -/
def insertMember (key : String) (value : Json) : List (String × Json) → List (String × Json)
  | [] => [(key, value)]
  | (k, v) :: rest =>
    if key = k then (key, value) :: rest
    else if key < k then (key, value) :: (k, v) :: rest
    else (k, v) :: insertMember key value rest

/-- The members in ascending order of keys; the last one with a key counts. -/
def sortMembers (members : List (String × Json)) : List (String × Json) :=
  members.foldl (fun sorted (key, value) => insertMember key value sorted) []

/-- Brackets may nest this deep. -/
def depthLimit : Nat := 127

mutual

/-- The value of a document within a number of further levels of brackets. -/
def ofDocument? (levels : Nat) : Document → Option Json
  | .null => some .null
  | .bool b => some (.bool b)
  | .number n => n.value.map .number
  | .quoted text => text.map .string
  | .array items =>
    if levels = 0 then none else (ofItems? (levels - 1) items).map .array
  | .object members =>
    if levels = 0 then none
    else (ofMembers? (levels - 1) members).map fun members => .object (sortMembers members)

/-- The values of the items of an array. -/
def ofItems? (levels : Nat) : List Document → Option (List Json)
  | [] => some []
  | item :: rest => do
    let value ← ofDocument? levels item
    let values ← ofItems? levels rest
    return value :: values

/-- The members of an object, in the order of writing. -/
def ofMembers? (levels : Nat) : List (Quoted × Document) → Option (List (String × Json))
  | [] => some []
  | (key, item) :: rest => do
    let key ← key
    let value ← ofDocument? levels item
    let members ← ofMembers? levels rest
    return (key, value) :: members

end

/-- Reads a value from a JSON text. -/
def ofText? (text : String) : Option Json :=
  (Document.ofText? text).bind (ofDocument? depthLimit)

/-! ### Looking inside -/

/-- The member of an object with a key. -/
def get? (key : String) : Json → Option Json
  | object members => members.lookup key
  | _ => none

/-- The text of a string. -/
def string? : Json → Option String
  | string text => some text
  | _ => none

/-- The truth value. -/
def bool? : Json → Option Bool
  | bool b => some b
  | _ => none

/-- An integer within 64 bits with a sign. -/
def int64? : Json → Option Int
  | number n => n.toInt64?
  | _ => none

/-- The items of an array. -/
def items? : Json → Option (List Json)
  | array items => some items
  | _ => none

/-- Arrays and objects. -/
def isBracketed : Json → Bool
  | array _ => true
  | object _ => true
  | _ => false

/-- An integer as a value. -/
def ofInt (n : Int) : Json :=
  number (.int n)

/-- An object with its members in ascending order of keys. -/
def ofMembers (members : List (String × Json)) : Json :=
  object (sortMembers members)

end Json

end DialogTable
