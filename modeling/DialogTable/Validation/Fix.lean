import DialogTable.Table

/-!
# Fixes

A fix is an edit of one node, addressed by its position in the table, so that a repeated number
never sends it to another row. An edit changes next nodes or routes and nothing else. It tells in
words what it did, or that there was nothing to change.
-/

namespace DialogTable

/-- The label of the route that an action takes when its command fails. -/
def errorLabel : String := "error"

/-- Whether a route is taken when the command fails. The label is compared up to case. -/
def Route.isErrorRoute (route : Route) : Bool :=
  Text.sameLetters route.label errorLabel

namespace Validation

/-- An edit of one node. -/
inductive Edit
  /-- Removes the first next node with the number. -/
  | dropNextNode (target : Int)
  /-- Leads the first next node with the number elsewhere. -/
  | repointNextNode (target newTarget : Int)
  /-- Leads the first route with the label and the target elsewhere. -/
  | repointRoute (label : String) (target newTarget : Int)
  /-- Adds a route for errors, unless there is one. -/
  | insertErrorRoute (newTarget : Int)
  deriving DecidableEq, Repr

/-- The edited node and a description, or none if the edit finds nothing to change. -/
def Edit.apply (node : Node) : Edit → Option (Node × String)
  | dropNextNode target =>
    if target ∈ node.nextNodes then
      some ({ node with nextNodes := node.nextNodes.erase target },
        s!"Node {node.number}: removed dangling next node {target}")
    else none
  | repointNextNode target newTarget =>
    if target ∈ node.nextNodes then
      some ({ node with nextNodes := node.nextNodes.replace target newTarget },
        s!"Node {node.number}: re-pointed dangling next node {target} to {newTarget}")
    else none
  | repointRoute label target newTarget =>
    if { label, target } ∈ node.routes then
      some ({ node with
          routes := node.routes.replace { label, target } { label, target := newTarget } },
        s!"Node {node.number}: re-pointed route '{label}' from {target} to {newTarget}")
    else none
  | insertErrorRoute newTarget =>
    if node.routes.any Route.isErrorRoute then none
    else
      some (node.withRoute errorLabel newTarget,
        s!"Node {node.number}: added '{errorLabel}' route to {newTarget}")

/-- An edit of the node at a position. -/
structure Fix where
  position : Nat
  edit : Edit
  deriving DecidableEq, Repr

namespace Fix

/-- Applies a fix. The row at the position is written anew in any case. -/
def apply (table : Table) (fix : Fix) : Table × Option String :=
  match table.nodes[fix.position]? with
  | none => (table, none)
  | some node =>
    match fix.edit.apply node with
    | none => (table.editAt fix.position id, none)
    | some (edited, description) =>
      (table.editAt fix.position fun _ => edited.touch, some description)

/-- Applies fixes one after another and collects the descriptions of those that changed
something. -/
def applyAll (fixes : List Fix) (table : Table) : Table × List String :=
  fixes.foldl
    (fun (table, descriptions) fix =>
      let (table, description) := fix.apply table
      (table, descriptions ++ description.toList))
    (table, [])

end Fix

end Validation

end DialogTable
