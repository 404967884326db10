import DialogTable.Text.Blank
import DialogTable.Text.Numeral

/-!
# Mentions of nodes

A message may say which node it is about: the word "node" in any case, then blanks and the signs
`#`, `:` and `-` in any mixture, then the digits of a number. A mention with a capital is the
subject of the message and counts before one that is spelled otherwise; of two alike the first
counts.
-/

namespace DialogTable.Compiler

/-- A number behind the word "node". -/
structure Mention where
  /-- Whether the word is spelled with a capital and otherwise small. -/
  capital : Bool
  number : Int
  deriving DecidableEq, Repr

namespace Mention

/-- The word in small letters. -/
def word : List Char := ['n', 'o', 'd', 'e']

/-- The spelling that names the subject. -/
def capitalWord : List Char := ['N', 'o', 'd', 'e']

/-- What may stand between the word and the number. -/
def isGap (c : Char) : Bool :=
  Text.isBlank c || c = '#' || c = ':' || c = '-'

/-- The mention that a text starts with. -/
def read (text : List Char) : Option Mention :=
  if Text.foldCase (text.take word.length) = word then
    (Text.readNumber (((text.drop word.length).dropWhile isGap).takeWhile Text.isDigit)).map
      fun number => { capital := text.take word.length = capitalWord, number }
  else none

/-- The mentions of a text, from left to right. -/
def all : List Char → List Mention
  | [] => []
  | c :: rest => (read (c :: rest)).toList ++ all rest

/-- The number of the mention that counts. -/
def subject (text : List Char) : Option Int :=
  let mentions := all text
  ((mentions.find? (·.capital)).or mentions.head?).map (·.number)

end Mention

end DialogTable.Compiler
