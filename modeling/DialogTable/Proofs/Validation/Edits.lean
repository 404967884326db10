import DialogTable.Validation
import DialogTable.Proofs.Table.Edit

/-!
# What fixes do to nodes

A fix edits the node at its position and no other one (`fst_apply`). So a node ends as its own edits
leave it, applied in their order (`getElem?_nodes_applyAll`), and the rest of the table stays as it
was (`edits_applyAll`).
-/

namespace DialogTable

/-- The node with other next nodes and routes. Its row will be written anew. -/
def Node.withExits (node : Node) (nextNodes : List Int) (routes : List Route) : Node :=
  { node with nextNodes, routes, line := none }

namespace Validation

namespace Edit

/-- The node after an edit. -/
def run (edit : Edit) (node : Node) : Node :=
  (((edit.apply node).map Prod.fst).getD node).touch

/-- The number that an edit leads to. -/
def newTarget? : Edit → Option Int
  | dropNextNode _ => none
  | repointNextNode _ newTarget => some newTarget
  | repointRoute _ _ newTarget => some newTarget
  | insertErrorRoute newTarget => some newTarget

theorem run_dropNextNode (target : Int) (node : Node) :
    (dropNextNode target).run node = node.withExits (node.nextNodes.erase target) node.routes := by
  rw [run, apply]
  split
  · rfl
  · next h =>
    rw [List.erase_of_not_mem h]
    rfl

theorem run_repointNextNode (target newTarget : Int) (node : Node) :
    (repointNextNode target newTarget).run node =
      node.withExits (node.nextNodes.replace target newTarget) node.routes := by
  rw [run, apply]
  split
  · rfl
  · next h =>
    rw [List.replace_of_not_mem h]
    rfl

theorem run_repointRoute (label : String) (target newTarget : Int) (node : Node) :
    (repointRoute label target newTarget).run node =
      node.withExits node.nextNodes
        (node.routes.replace { label, target } { label, target := newTarget }) := by
  rw [run, apply]
  split
  · rfl
  · next h =>
    rw [List.replace_of_not_mem h]
    rfl

theorem run_insertErrorRoute (newTarget : Int) (node : Node) :
    (insertErrorRoute newTarget).run node =
      node.withExits node.nextNodes
        (if node.routes.any Route.isErrorRoute then node.routes
          else node.routes ++ [{ label := errorLabel, target := newTarget }]) := by
  rw [run, apply]
  split <;> rfl

/-- Edits change next nodes and routes, and look at nothing else. -/
theorem run_eq_withExits (edit : Edit) (node : Node) :
    edit.run node = node.withExits (edit.run node).nextNodes (edit.run node).routes := by
  cases edit with
  | dropNextNode target => rw [run_dropNextNode]; rfl
  | repointNextNode target newTarget => rw [run_repointNextNode]; rfl
  | repointRoute label target newTarget => rw [run_repointRoute]; rfl
  | insertErrorRoute newTarget => rw [run_insertErrorRoute]; rfl

theorem line_run (edit : Edit) (node : Node) : (edit.run node).line = none := by
  rw [run_eq_withExits]
  rfl

/-- Edits keep the number of a node. -/
theorem number_run (edit : Edit) (node : Node) : (edit.run node).number = node.number := by
  rw [run_eq_withExits]
  rfl

/-- An edit does not look at the line of the node. -/
theorem run_touch (edit : Edit) (node : Node) : edit.run node.touch = edit.run node := by
  cases edit with
  | dropNextNode target => rw [run_dropNextNode, run_dropNextNode]; rfl
  | repointNextNode target newTarget => rw [run_repointNextNode, run_repointNextNode]; rfl
  | repointRoute label target newTarget => rw [run_repointRoute, run_repointRoute]; rfl
  | insertErrorRoute newTarget => rw [run_insertErrorRoute, run_insertErrorRoute]; rfl

end Edit

end Validation

/-! ### Edited nodes are regular -/

theorem trimmed_errorLabel : Text.trimmed errorLabel = errorLabel := by
  decide +kernel

theorem not_mem_errorLabel : listSeparator ∉ errorLabel.toList := by
  decide +kernel

theorem mem_of_mem_replace {α : Type} [BEq α] {a b c : α} {l : List α} (h : c ∈ l.replace a b) :
    c ∈ l ∨ c = b := by
  induction l with
  | nil => exact .inl h
  | cons d l ih =>
    rw [List.replace_cons] at h
    split at h
    · rcases List.mem_cons.1 h with h | h
      · exact .inr h
      · exact .inl (List.mem_cons_of_mem d h)
    · rcases List.mem_cons.1 h with rfl | h
      · exact .inl List.mem_cons_self
      · exact (ih h).imp_left (List.mem_cons_of_mem d)

namespace Validation

theorem Edit.regular_run {edit : Edit} {node : Node} (h : node.Regular)
    (ht : ∀ target, edit.newTarget? = some target → Text.InRange64 target) :
    (edit.run node).Regular := by
  cases edit with
  | dropNextNode target =>
    rw [run_dropNextNode]
    exact h.withExits none (fun n hn => h.nextNodes_inRange n (List.mem_of_mem_erase hn))
      h.routes_regular
  | repointNextNode target newTarget =>
    rw [run_repointNextNode]
    refine h.withExits none (fun n hn => ?_) h.routes_regular
    rcases mem_of_mem_replace hn with hn | rfl
    · exact h.nextNodes_inRange n hn
    · exact ht n rfl
  | repointRoute label target newTarget =>
    rw [run_repointRoute]
    by_cases hmem : { label, target } ∈ node.routes
    · have hold : Route.Regular { label, target } := h.routes_regular _ hmem
      refine h.withExits none h.nextNodes_inRange fun route hroute => ?_
      rcases mem_of_mem_replace hroute with hroute | rfl
      · exact h.routes_regular route hroute
      · exact ⟨hold.label_trimmed, hold.label_single, ht newTarget rfl⟩
    · rw [List.replace_of_not_mem hmem]
      exact h.touch
  | insertErrorRoute newTarget =>
    rw [run_insertErrorRoute]
    refine h.withExits none h.nextNodes_inRange fun route hroute => ?_
    split at hroute
    · exact h.routes_regular route hroute
    · rcases List.mem_append.1 hroute with hroute | hroute
      · exact h.routes_regular route hroute
      · rw [List.mem_singleton.1 hroute]
        exact ⟨trimmed_errorLabel, not_mem_errorLabel, ht newTarget rfl⟩

/-! ### Fixes of a table -/

namespace Fix

/-- A fix edits the node at its position, and has its row written anew in any case. -/
theorem fst_apply (fix : Fix) (table : Table) :
    (fix.apply table).1 = table.editAt fix.position fix.edit.run := by
  rw [apply]
  cases hnode : table.nodes[fix.position]? with
  | none => exact (Table.editAt_eq_self hnode fix.edit.run).symm
  | some node =>
    have hedit (edit : Node → Node) (hsame : edit node.touch = fix.edit.run node) :
        table.editAt fix.position edit = table.editAt fix.position fix.edit.run := by
      apply Table.editAt_congr
      intro other hother
      obtain rfl := Option.some.inj (hnode.symm.trans hother)
      rw [hsame, Edit.run_touch]
    have hrun : fix.edit.run node = (((fix.edit.apply node).map Prod.fst).getD node).touch := rfl
    dsimp only
    cases happly : fix.edit.apply node with
    | none =>
      rw [happly] at hrun
      exact hedit id hrun.symm
    | some edited =>
      rw [happly] at hrun
      exact hedit (fun _ => edited.1.touch) hrun.symm

theorem nodes_apply (fix : Fix) (table : Table) :
    (fix.apply table).1.nodes = table.nodes.modify fix.position fix.edit.run := by
  rw [fst_apply, Table.nodes_editAt]
  simp only [Edit.run_touch]

theorem edits_apply {fix : Fix} {table : Table} (h : table.Faithful)
    (ht : ∀ target, fix.edit.newTarget? = some target → Text.InRange64 target) :
    Table.Edits table (fix.apply table).1 := by
  rw [fst_apply]
  apply Table.edits_editAt
  intro node hnode
  rw [Edit.run_touch]
  exact ⟨Edit.regular_run (h.regular hnode) ht, fix.edit.line_run node⟩

/-- Fixes are applied one after another. -/
theorem fst_applyAll (fixes : List Fix) (table : Table) :
    (applyAll fixes table).1 = fixes.foldl (fun table fix => (fix.apply table).1) table := by
  rw [applyAll]
  generalize [] = descriptions
  induction fixes generalizing table descriptions with
  | nil => rfl
  | cons fix rest ih => exact ih _ _

theorem nodes_applyAll (fixes : List Fix) (table : Table) :
    (applyAll fixes table).1.nodes =
      fixes.foldl (fun nodes fix => nodes.modify fix.position fix.edit.run) table.nodes := by
  rw [fst_applyAll]
  induction fixes generalizing table with
  | nil => rfl
  | cons fix rest ih => rw [List.foldl_cons, List.foldl_cons, ih, nodes_apply]

/-- One fix more edits one node more. -/
theorem nodes_applyAll_concat {fixes : List Fix} {fix : Fix} {table : Table} {node : Node}
    (h : (applyAll fixes table).1.nodes[fix.position]? = some node) :
    (applyAll (fixes ++ [fix]) table).1.nodes =
      (applyAll fixes table).1.nodes.set fix.position (fix.edit.run node) := by
  have hlast : (applyAll (fixes ++ [fix]) table).1 = (fix.apply (applyAll fixes table).1).1 := by
    rw [fst_applyAll, fst_applyAll, List.foldl_concat]
  rw [hlast, nodes_apply, List.modify_eq_set_getElem?, h]
  rfl

/-- Each node is edited by its own fixes, in their order. -/
theorem getElem?_nodes_applyAll (fixes : List Fix) (table : Table) (position : Nat) :
    (applyAll fixes table).1.nodes[position]? =
      table.nodes[position]?.map fun node =>
        ((fixes.filter (·.position = position)).map Fix.edit).foldl (fun node edit => edit.run node)
          node := by
  rw [nodes_applyAll]
  generalize table.nodes = nodes
  induction fixes generalizing nodes with
  | nil => simp
  | cons fix rest ih =>
    rw [List.foldl_cons, ih, List.getElem?_modify, List.filter_cons]
    by_cases h : fix.position = position
    · simp [h, Function.comp_def]
    · simp [h]

/-- Fixes that lead to numbers in range are edits of the table. -/
theorem edits_applyAll {fixes : List Fix} {table : Table} (h : table.Faithful)
    (ht : ∀ fix ∈ fixes, ∀ target, fix.edit.newTarget? = some target → Text.InRange64 target) :
    Table.Edits table (applyAll fixes table).1 := by
  rw [fst_applyAll]
  induction fixes generalizing table with
  | nil => exact .refl table
  | cons fix rest ih =>
    have hfirst := edits_apply h (ht fix List.mem_cons_self)
    exact hfirst.trans (ih (hfirst.faithful h) fun other ho => ht other (List.mem_cons_of_mem fix ho))

end Fix

end Validation

end DialogTable
