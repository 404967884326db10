/-!
# Draws

A computation may draw numbers from an endless tape, one after another. A draw from a range takes
the remainder by the size of the range, and a chance compares the remainder by a hundred, so every
tape is good for every computation.
-/

namespace DialogTable.Sample

/-- A computation that draws from a tape. The state is the number of draws so far. -/
abbrev Draw (α : Type) : Type :=
  ReaderT (Nat → Nat) (StateM Nat) α

namespace Draw

/-- The next number of the tape. -/
def next : Draw Nat :=
  fun tape position => (tape position, position + 1)

/-- One of the numbers from `low` on, of which there are `size`. -/
def among (low size : Nat) : Draw Nat := do
  return low + (← next) % size

/-- True in so many cases of a hundred. -/
def chance (percent : Nat) : Draw Bool := do
  return (← next) % 100 < percent

/-- One of some texts. -/
def oneOf (texts : List String) : Draw String := do
  return texts.getD (← among 0 texts.length) ""

/-- The result of a computation on a fresh tape. -/
def result {α : Type} (draw : Draw α) (tape : Nat → Nat) : α :=
  (draw tape 0).1

end Draw

end DialogTable.Sample
