import DialogTable.Json.Numeral

/-!
# Tokens of a JSON text

The lexer runs over the characters once. Outside of quotes the white space of JSON separates tokens.
Inside of quotes a control character stands only escaped. An escape may name half of a surrogate
pair: the token is then well formed, but its text exists only if the other half follows.
-/

namespace DialogTable.Json

/-- A unit of a quoted text: a character, or a code unit of 16 bits given by its number. -/
inductive TextUnit
  | char (c : Char)
  | codeUnit (n : Nat)
  deriving DecidableEq, Repr

/-- The first half of a surrogate pair. -/
def isHighSurrogate (n : Nat) : Bool :=
  0xD800 ≤ n && n < 0xDC00

/-- The second half of a surrogate pair. -/
def isLowSurrogate (n : Nat) : Bool :=
  0xDC00 ≤ n && n < 0xE000

/-- A decoded rest of a quoted text, and the second half of a surrogate pair that it starts with. -/
abbrev Decoded := List Char × Option Nat

/-- Puts a unit in front of a decoded rest. The first half of a pair has to stand right before a
second half, and a second half right behind a first. -/
def decodeUnit (unit : TextUnit) (rest : Decoded) : Option Decoded :=
  match unit, rest.2 with
  | .codeUnit n, some m =>
    if isHighSurrogate n then
      some (Char.ofNat (0x10000 + (n - 0xD800) * 0x400 + (m - 0xDC00)) :: rest.1, none)
    else none
  | .codeUnit n, none =>
    if isHighSurrogate n then none
    else if isLowSurrogate n then some (rest.1, some n)
    else some (Char.ofNat n :: rest.1, none)
  | .char _, some _ => none
  | .char c, none => some (c :: rest.1, none)

/-- The text of quoted units. None if half of a surrogate pair stands alone. -/
def decodeUnits (units : List TextUnit) : Option (List Char) :=
  match units.foldr (fun unit rest => rest.bind (decodeUnit unit)) (some ([], none)) with
  | some (text, none) => some text
  | _ => none

/-- The text between quotes, or none if it is no text. -/
abbrev Quoted := Option String

/-- The tokens of a JSON text. -/
inductive Token
  | openBrace
  | closeBrace
  | openBracket
  | closeBracket
  | comma
  | colon
  | null
  | bool (b : Bool)
  | number (n : Numeral)
  | quoted (text : Quoted)
  deriving DecidableEq, Repr

namespace Token

/-- The white space of JSON. -/
def isSpace (c : Char) : Bool :=
  c = ' ' || c = '\t' || c = '\n' || c = '\r'

/-- The characters of numbers and of the three names. -/
def isWordChar (c : Char) : Bool :=
  c.isAlphanum || c = '+' || c = '-' || c = '.'

/-- Reads a number or one of the three names. -/
def ofWord (word : List Char) : Option Token :=
  if word = "null".toList then some null
  else if word = "true".toList then some (bool true)
  else if word = "false".toList then some (bool false)
  else (Numeral.read word).map number

/-- The token of a punctuation mark. -/
def ofMark (c : Char) : Option Token :=
  match c with
  | '\x7b' => some openBrace
  | '\x7d' => some closeBrace
  | '[' => some openBracket
  | ']' => some closeBracket
  | ',' => some comma
  | ':' => some colon
  | _ => none

/-- The character that an escape of one letter stands for. -/
def ofEscape (c : Char) : Option Char :=
  match c with
  | '"' => some '"'
  | '\\' => some '\\'
  | '/' => some '/'
  | 'b' => some '\x08'
  | 'f' => some '\x0c'
  | 'n' => some '\n'
  | 'r' => some '\r'
  | 't' => some '\t'
  | _ => none

end Token

/-- What the lexer is inside of. Collected parts are in reverse order. -/
inductive LexMode
  | between
  | word (chars : List Char)
  | quoted (units : List TextUnit)
  | escape (units : List TextUnit)
  /-- Some hexadecimal digits are still to come. -/
  | codeUnit (units : List TextUnit) (missing value : Nat)
  deriving Repr

/-- The lexer between two characters. The tokens so far are in reverse order. -/
structure Lexer where
  tokens : List Token := []
  mode : LexMode := .between
  deriving Repr

namespace Lexer

/-- Reads a character between tokens. -/
def start (tokens : List Token) (c : Char) : Option Lexer :=
  if Token.isSpace c then some { tokens }
  else if c = '"' then some { tokens, mode := .quoted [] }
  else if Token.isWordChar c then some { tokens, mode := .word [c] }
  else (Token.ofMark c).map fun token => { tokens := token :: tokens }

/-- Reads a character. -/
def step (lexer : Lexer) (c : Char) : Option Lexer :=
  match lexer.mode with
  | .between => start lexer.tokens c
  | .word chars =>
    if Token.isWordChar c then some { lexer with mode := .word (c :: chars) }
    else (Token.ofWord chars.reverse).bind fun token => start (token :: lexer.tokens) c
  | .quoted units =>
    if c = '"' then
      let text := (decodeUnits units.reverse).map String.ofList
      some { tokens := .quoted text :: lexer.tokens }
    else if c = '\\' then some { lexer with mode := .escape units }
    else if c.toNat < 0x20 then none
    else some { lexer with mode := .quoted (.char c :: units) }
  | .escape units =>
    if c = 'u' then some { lexer with mode := .codeUnit units 4 0 }
    else (Token.ofEscape c).map fun d => { lexer with mode := .quoted (.char d :: units) }
  | .codeUnit units missing value =>
    (Text.hexValue c).map fun digit =>
      let value := 16 * value + digit
      if missing ≤ 1 then { lexer with mode := .quoted (.codeUnit value :: units) }
      else { lexer with mode := .codeUnit units (missing - 1) value }

/-- The tokens at the end of the text, in order. -/
def finish (lexer : Lexer) : Option (List Token) :=
  match lexer.mode with
  | .between => some lexer.tokens.reverse
  | .word chars => (Token.ofWord chars.reverse).map fun token => (token :: lexer.tokens).reverse
  | _ => none

end Lexer

/-- The tokens of a text. -/
def tokenize (text : List Char) : Option (List Token) :=
  (text.foldlM Lexer.step {}).bind Lexer.finish

end DialogTable.Json
