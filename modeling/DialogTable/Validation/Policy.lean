import DialogTable.Node

/-!
# Validation policy

What the checks leave to the author of a table: the tags that mark an intended end of the dialog,
and the node that stray references are led to. Where that node does not exist the nearest one stands
in.
-/

namespace DialogTable.Validation

/-- The settings of the checks. -/
structure Policy where
  /-- The preferred target of re-pointed references. -/
  fallback : Option Int := some 99990
  endpointTags : List String := ["end", "endpoint", "terminal", "xfer_to_agent"]
  deriving DecidableEq, Repr, Inhabited

/-- How far a number is from another one, computed in words of 64 bits with a sign. The absolute
value of the least word is that word itself. -/
def distance (near n : Int) : Int64 :=
  (Int64.ofInt n - Int64.ofInt near).abs

/-- The number that is nearer, the lower one in a tie. -/
def nearer (near a b : Int) : Int :=
  let da := distance near a
  let db := distance near b
  if da < db ∨ (da = db ∧ a ≤ b) then a else b

/-- The nearest of some numbers. -/
def nearest? (near : Int) : List Int → Option Int
  | [] => none
  | n :: rest =>
    match nearest? near rest with
    | none => some n
    | some m => some (nearer near n m)

namespace Policy

/-- Whether a node is tagged as an end of the dialog. Tags are compared up to case. -/
def isEndpoint (policy : Policy) (node : Node) : Bool :=
  [Column.nodeTags, Column.behaviors].any fun column =>
    (node.tokens column).any fun token =>
      policy.endpointTags.any fun tag => Text.sameLetters tag token

/-- The target for a reference of `source` that should lead near a number: the preferred node if it
is known, else the nearest known one. A node never falls back to itself. -/
def target? (policy : Policy) (known : List Int) (source near : Int) : Option Int :=
  let others := known.filter (· ≠ source)
  match policy.fallback with
  | some number => if number ∈ others then some number else nearest? near others
  | none => nearest? near others

end Policy

end DialogTable.Validation
