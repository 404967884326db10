import DialogTable.Text.Blank
import DialogTable.Text.Split

/-!
# Clean text

Clean text ends its lines with line feeds, and has no control characters but line feed and tab, no
invisible characters and no non-breaking spaces. Cleaning makes any text clean and counts what it
changed.
-/

namespace DialogTable.Text

/-- Characters without width: byte order mark, zero-width space, the two joiners, word joiner. -/
def invisible : List Char :=
  ['\uFEFF', '\u200B', '\u200C', '\u200D', '\u2060']

/-- The non-breaking space. -/
def hardSpace : Char := '\u00A0'

/-- Characters that are dropped. -/
def isDropped (c : Char) : Bool :=
  c ∈ invisible || (isControl c && c != '\n' && c != '\t' && c != '\r')

/-- A cleaned text and what was changed in it. -/
structure Cleaned where
  text : List Char := []
  /-- The number of invisible and control characters that were dropped. -/
  removed : Nat := 0
  /-- The number of non-breaking spaces that became spaces. -/
  replaced : Nat := 0
  /-- The number of line ends with a carriage return. -/
  lineEndings : Nat := 0
  deriving DecidableEq, Repr

namespace Cleaned

/-- Whether anything was changed. -/
def changed (cleaned : Cleaned) : Bool :=
  0 < cleaned.removed + cleaned.replaced + cleaned.lineEndings

/-- What was changed, in words. -/
def describe (cleaned : Cleaned) : Option String :=
  if cleaned.changed then
    let part (count : Nat) (words : String) : List String := if count = 0 then [] else [words]
    some ("Sanitized artifact: " ++ join ", " (
      part cleaned.removed s!"removed {cleaned.removed} invisible or control characters"
      ++ part cleaned.replaced s!"replaced {cleaned.replaced} non-breaking spaces"
      ++ part cleaned.lineEndings s!"normalized {cleaned.lineEndings} line endings"))
  else none

/-- Puts a character in front of a cleaned rest. `beforeFeed` tells whether a line feed follows: a
carriage return before it belongs to the same line end. -/
def cons (c : Char) (beforeFeed : Bool) (rest : Cleaned) : Cleaned :=
  if c = '\r' then
    { rest with
      text := if beforeFeed then rest.text else '\n' :: rest.text
      lineEndings := rest.lineEndings + 1 }
  else if c = hardSpace then
    { rest with text := ' ' :: rest.text, replaced := rest.replaced + 1 }
  else if isDropped c then { rest with removed := rest.removed + 1 }
  else { rest with text := c :: rest.text }

end Cleaned

/-- Cleans a text. The flag of the fold tells whether the rest starts with a line feed. -/
def clean (text : List Char) : Cleaned :=
  (text.foldr (fun c (rest : Cleaned × Bool) => (rest.1.cons c rest.2, c = '\n')) ({}, false)).1

/-! ### Small facts -/

theorem clean_cons (c : Char) (rest : List Char) :
    clean (c :: rest) = (clean rest).cons c (rest.head? = some '\n') := by
  cases rest <;> simp [clean]

end DialogTable.Text
