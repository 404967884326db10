/-!
# Lines of a text

A line ends at a line feed, and one carriage return right before that line feed belongs to the line
ending. Nothing else ends a line: a carriage return on its own stays in the text, also at the very
end of it.
-/

namespace DialogTable.Text

/-- The lines that a line feed closes, and the text after the last line feed. -/
def closedLines (text : List Char) : List (List Char) × List Char :=
  text.foldr
    (fun c split =>
      if c = '\n' then ([] :: split.1, split.2)
      else match split.1 with
        | [] => ([], c :: split.2)
        | line :: later => ((c :: line) :: later, split.2))
    ([], [])

/-- Drops one carriage return at the end of a closed line. -/
def dropReturn (line : List Char) : List Char :=
  if line.getLast? = some '\r' then line.dropLast else line

/-- The lines of a text. A text that ends with a line feed has no further empty line. -/
def lines (text : List Char) : List (List Char) :=
  let split := closedLines text
  split.1.map dropReturn ++ (if split.2 = [] then [] else [split.2])

/-- The texts, each followed by a line feed. -/
def closeLines (texts : List String) : String :=
  String.join (texts.map (· ++ "\n"))

/-! ### Small facts -/

theorem closedLines_lineFeed (rest : List Char) :
    closedLines ('\n' :: rest) = ([] :: (closedLines rest).1, (closedLines rest).2) := by
  simp [closedLines]

end DialogTable.Text
