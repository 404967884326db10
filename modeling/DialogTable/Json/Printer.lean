import DialogTable.Json

/-!
# Printed JSON

The compact form has no white space. The indented form has one item or member a line, two spaces a
level; empty brackets stay closed. Quotes, backslashes and control characters below space are
escaped, anything else stands as it is.
-/

namespace DialogTable.Json

/-- The escape of a character inside quotes. -/
def escapeChar (c : Char) : List Char :=
  match c with
  | '"' => ['\\', '"']
  | '\\' => ['\\', '\\']
  | '\x08' => ['\\', 'b']
  | '\x0c' => ['\\', 'f']
  | '\n' => ['\\', 'n']
  | '\r' => ['\\', 'r']
  | '\t' => ['\\', 't']
  | c => if c.toNat < 0x20 then '\\' :: 'u' :: Text.hexDigits 4 c.toNat Text.hexDigit else [c]

/-- A text between quotes. -/
def printString (text : String) : String :=
  .ofList ('"' :: text.toList.flatMap escapeChar ++ ['"'])

mutual

/-- The compact form. -/
def print : Json → String
  | null => "null"
  | bool b => if b then "true" else "false"
  | number n => n.print
  | string text => printString text
  | array items => "[" ++ ",".intercalate (printItems items) ++ "]"
  | object members => "\x7b" ++ ",".intercalate (printMembers members) ++ "\x7d"

/-- The compact forms of items. -/
def printItems : List Json → List String
  | [] => []
  | item :: rest => print item :: printItems rest

/-- The compact forms of members. -/
def printMembers : List (String × Json) → List String
  | [] => []
  | (key, value) :: rest => (printString key ++ ":" ++ print value) :: printMembers rest

end

/-- Brackets around lines at a level of indentation. -/
def indentBlock (opening closing : String) (level : Nat) (lines : List String) : String :=
  if lines = [] then opening ++ closing
  else
    let newline (level : Nat) : String := .ofList ('\n' :: List.replicate (2 * level) ' ')
    opening ++ ",".intercalate (lines.map (newline (level + 1) ++ ·)) ++ newline level ++ closing

mutual

/-- The indented form inside of a number of brackets. -/
def printIndented (level : Nat) : Json → String
  | array items => indentBlock "[" "]" level (indentedItems (level + 1) items)
  | object members => indentBlock "\x7b" "\x7d" level (indentedMembers (level + 1) members)
  | null => "null"
  | bool b => if b then "true" else "false"
  | number n => n.print
  | string text => printString text

/-- The indented forms of items. -/
def indentedItems (level : Nat) : List Json → List String
  | [] => []
  | item :: rest => printIndented level item :: indentedItems level rest

/-- The indented forms of members. -/
def indentedMembers (level : Nat) : List (String × Json) → List String
  | [] => []
  | (key, value) :: rest =>
    (printString key ++ ": " ++ printIndented level value) :: indentedMembers level rest

end

end DialogTable.Json
