import DialogTable.Node

/-!
# Flows

A flow is a named part of a dialog. It owns the node numbers from its start up to the start of the
next flow.
-/

namespace DialogTable

/-- A named part of a dialog. -/
structure Flow where
  name : String
  description : String
  start : Int
  deriving DecidableEq, Repr, Inhabited

/-- Why flows make no plan. -/
inductive FlowError
  | overlappingStart (first second : String) (start : Int)
  | duplicateName (name : String)
  | startOutOfRange (name : String) (start : Int)
  | rangeExhausted
  deriving DecidableEq, Repr

/-- The wording of an error. -/
def FlowError.message : FlowError → String
  | overlappingStart first second start =>
    s!"Flows '{first}' and '{second}' both start at node {start}"
  | duplicateName name => s!"Flow name '{name}' is used more than once"
  | startOutOfRange name start =>
    s!"Flow '{name}' starts at {start}, outside the assignable range [0, {systemThreshold})"
  | rangeExhausted => "No free node block is left below the system threshold"

end DialogTable
