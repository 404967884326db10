import DialogTable.Text.Line

/-!
# Cells of a row

A row is one line of cells between commas. A quote opens or closes a guarded stretch, in which a
comma is text; quotes are not doubled. One quote at the front and one at the end of a cell belong to
the writing and not to the cell.

`split` reads a line and `encode` writes one cell. A cell can hold any text without line breaks, but
not every such text can be written so that it reads back: `encode` then writes the wrapped form all
the same.
-/

namespace DialogTable.Cell

/-- The raw text of the first cell and of the later ones. `guarded` tells whether the text starts
inside quotes. -/
def rawParts (guarded : Bool) : List Char → List Char × List (List Char)
  | [] => ([], [])
  | c :: rest =>
    if c = ',' && !guarded then
      let split := rawParts guarded rest
      ([], split.1 :: split.2)
    else
      let split := rawParts (guarded ^^ (c = '"')) rest
      (c :: split.1, split.2)

/-- Drops one quote at the front. -/
def dropOpening : List Char → List Char
  | '"' :: rest => rest
  | raw => raw

/-- Drops one quote at the end. -/
def dropClosing (raw : List Char) : List Char :=
  if raw.getLast? = some '"' then raw.dropLast else raw

/-- Takes off one quote on each side. -/
def unwrap (raw : List Char) : List Char :=
  dropClosing (dropOpening raw)

/-- The cells of a line; there is always at least one. -/
def split (line : List Char) : List (List Char) :=
  let parts := rawParts false line
  (parts.1 :: parts.2).map unwrap

/-- A cell stays on its line: line breaks become spaces. -/
def flatten (cell : List Char) : List Char :=
  cell.map fun c => if c = '\n' ∨ c = '\r' then ' ' else c

/-- The cell between two quotes. -/
def wrap (cell : List Char) : List Char :=
  '"' :: (cell ++ ['"'])

/-- Writes a cell. A cell that reads back as it stands is written so; else it is wrapped. -/
def encode (cell : List Char) : List Char :=
  let flat := flatten cell
  if ',' ∉ flat ∧ '"' ∉ flat then flat
  else if split flat = [flat] then flat
  else wrap flat

/-- Writes a row of cells. -/
def encodeRow (cells : List String) : String :=
  ",".intercalate (cells.map fun cell => .ofList (encode cell.toList))

/-! ### Small facts -/

theorem rawParts_nil (guarded : Bool) : rawParts guarded [] = ([], []) := rfl

theorem rawParts_comma (rest : List Char) :
    rawParts false (',' :: rest) =
      ([], (rawParts false rest).1 :: (rawParts false rest).2) := by
  simp [rawParts]

theorem length_flatten (cell : List Char) : (flatten cell).length = cell.length := by
  simp [flatten]

end DialogTable.Cell
