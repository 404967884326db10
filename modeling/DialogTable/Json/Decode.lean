import DialogTable.Json.Document

/-!
# Records in JSON

A record with known fields is an object, or an array of the values in the order of the fields. Of an
object unknown members are passed over, whatever they hold, and a repeated field is refused; of an
array trailing values may be missing. An integer is written as one.
-/

namespace DialogTable.Json.Document

/-- A text. -/
def text? : Document → Option String
  | quoted text => text
  | _ => none

/-- A truth value. -/
def bool? : Document → Option Bool
  | bool b => some b
  | _ => none

/-- An integer that satisfies a condition. -/
def int? (p : Int → Bool) : Document → Option Int
  | number numeral =>
    match numeral.value with
    | some (.int n) => if p n then some n else none
    | _ => none
  | _ => none

/-- A natural number below a bound. -/
def nat? (bound : Nat) (document : Document) : Option Nat :=
  (document.int? fun n => 0 ≤ n && n < bound).map Int.toNat

/-- A value or null. -/
def nullable? {α : Type} (read : Document → Option α) : Document → Option (Option α)
  | null => some none
  | document => (read document).map some

/-- A list of values. -/
def list? {α : Type} (read : Document → Option α) : Document → Option (List α)
  | array items => items.mapM read
  | _ => none

/-- The fields of a record as far as they are given. -/
abbrev Fields := List (String × Document)

/-- Adds the member of an object to the fields, under the main name of its key. `names` lists the
spellings of each field, the main name first. -/
def addField (names : List (List String)) (fields : Fields) (member : Quoted × Document) :
    Option Fields := do
  let key ← member.1
  match names.find? fun spellings => key ∈ spellings with
  | none => some fields
  | some spellings =>
    let name := spellings.headD key
    if (fields.lookup name).isSome then none else some (fields ++ [(name, member.2)])

/-- The fields of a record. -/
def fields? (names : List (List String)) : Document → Option Fields
  | object members => members.foldlM (addField names) []
  | array items =>
    if items.length ≤ names.length then some ((names.map (·.headD "")).zip items) else none
  | _ => none

/-- Reads a field that has to be given. -/
def required {α : Type} (fields : Fields) (name : String) (read : Document → Option α) : Option α :=
  (fields.lookup name).bind read

/-- Reads a field, or takes the given value where the field is missing. -/
def withDefault {α : Type} (fields : Fields) (name : String) (read : Document → Option α)
    (value : α) : Option α :=
  match fields.lookup name with
  | none => some value
  | some document => read document

end DialogTable.Json.Document
