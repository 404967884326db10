/-!
# Searching by halving

Where the items that satisfy a condition stand in front of all others, there is a point at which the
condition stops to hold. It is found by halving the stretch that it lies in.
-/

namespace DialogTable

variable {α : Type}

/-- The point between two positions at which a condition stops to hold. -/
def partitionPointWithin (p : α → Bool) (items : List α) (low high : Nat) : Nat :=
  if low < high then
    let middle := (low + high) / 2
    if items[middle]?.any p then partitionPointWithin p items (middle + 1) high
    else partitionPointWithin p items low middle
  else low
termination_by high - low

/-- The position of the first item that does not satisfy a condition, if none behind it does. -/
def partitionPoint (p : α → Bool) (items : List α) : Nat :=
  partitionPointWithin p items 0 items.length

end DialogTable
