import DialogTable.Json.Token

/-!
# JSON documents

A document is what stands in a JSON text: every member of an object in the order of writing, a key
that is repeated included, and every number with its digits. Brackets may nest to any depth.

The reader goes over the tokens once, with the open brackets on a stack.
-/

namespace DialogTable.Json

/-- A JSON text as a tree. -/
inductive Document
  | null
  | bool (b : Bool)
  | number (n : Numeral)
  | quoted (text : Quoted)
  | array (items : List Document)
  | object (members : List (Quoted × Document))
  deriving Repr

/-- An open bracket with what it holds so far, in reverse order. -/
inductive Frame
  | array (items : List Document)
  /-- The key waits for its value. -/
  | object (members : List (Quoted × Document)) (key : Quoted)

/-- What the reader has to see next, with the open brackets around it. -/
inductive Reader
  | value (stack : List Frame)
  /-- A first item or the end of an array. -/
  | itemOrEnd (stack : List Frame)
  /-- A first key or the end of an object. -/
  | keyOrEnd (stack : List Frame)
  | key (members : List (Quoted × Document)) (stack : List Frame)
  | colon (members : List (Quoted × Document)) (key : Quoted) (stack : List Frame)
  /-- A value is complete; the bracket around it goes on or ends. -/
  | after (value : Document) (stack : List Frame)

namespace Reader

/-- Reads the first token of a value. -/
def beginValue (stack : List Frame) : Token → Option Reader
  | .openBrace => some (keyOrEnd stack)
  | .openBracket => some (itemOrEnd stack)
  | .null => some (after .null stack)
  | .bool b => some (after (.bool b) stack)
  | .number n => some (after (.number n) stack)
  | .quoted text => some (after (.quoted text) stack)
  | _ => none

/-- Reads a token. -/
def step : Reader → Token → Option Reader
  | value stack, token => beginValue stack token
  | itemOrEnd stack, .closeBracket => some (after (.array []) stack)
  | itemOrEnd stack, token => beginValue (.array [] :: stack) token
  | keyOrEnd stack, .closeBrace => some (after (.object []) stack)
  | keyOrEnd stack, .quoted text => some (colon [] text stack)
  | key members stack, .quoted text => some (colon members text stack)
  | colon members name stack, .colon => some (value (.object members name :: stack))
  | after item (.array items :: stack), .comma => some (value (.array (item :: items) :: stack))
  | after item (.array items :: stack), .closeBracket =>
    some (after (.array (item :: items).reverse) stack)
  | after item (.object members name :: stack), .comma => some (key ((name, item) :: members) stack)
  | after item (.object members name :: stack), .closeBrace =>
    some (after (.object ((name, item) :: members).reverse) stack)
  | _, _ => none

/-- The document at the end of the tokens. -/
def finish : Reader → Option Document
  | after document [] => some document
  | _ => none

end Reader

/-- Reads a JSON text. -/
def Document.ofText? (text : String) : Option Document := do
  let tokens ← tokenize text.toList
  let reader ← tokens.foldlM Reader.step (Reader.value [])
  reader.finish

end DialogTable.Json
