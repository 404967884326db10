import Mathlib.Data.List.Forall2
import Mathlib.Data.List.Perm.Subperm
import DialogTable.Proofs.Validation.FixedPoint

/-!
# Fixes take effect

A fix finds its next node or its route by value, in a node that earlier fixes of the same pass have
edited. `Effective` says of a list of edits that each of them finds what it is to change when its
turn comes, and changes it. The edits proposed for a node are effective (`effective_edits`): those
that look for one number find it as often as the node has it, and no edit brings a stray number
back. So a pass has one description for each fix, and the description tells of the node of the issue
that the fix was proposed for (`fixes_take_effect`).
-/

namespace DialogTable.Validation

namespace Edit

/-- What an edit says that it did to the node with a number. -/
def description (number : Int) : Edit → String
  | dropNextNode target => s!"Node {number}: removed dangling next node {target}"
  | repointNextNode target newTarget =>
    s!"Node {number}: re-pointed dangling next node {target} to {newTarget}"
  | repointRoute label target newTarget =>
    s!"Node {number}: re-pointed route '{label}' from {target} to {newTarget}"
  | insertErrorRoute newTarget => s!"Node {number}: added '{errorLabel}' route to {newTarget}"

/-- An edit that finds what it is to change, and after which the node leads elsewhere. -/
structure TakesEffect (edit : Edit) (node : Node) : Prop where
  applied : (edit.apply node).isSome
  changed : (edit.run node).nextNodes ≠ node.nextNodes ∨ (edit.run node).routes ≠ node.routes

/-! ### Single edits -/

theorem replace_ne_self {α : Type} [DecidableEq α] {a b : α} {l : List α} (h : a ∈ l)
    (hne : b ≠ a) : l.replace a b ≠ l := by
  induction l with
  | nil => exact absurd h List.not_mem_nil
  | cons c rest ih =>
    by_cases hc : c = a
    · subst hc
      rw [List.replace_cons_self]
      exact fun heq => hne (List.cons.inj heq).1
    · have hrest : a ∈ rest := (List.mem_cons.1 h).resolve_left (Ne.symm hc)
      rw [List.replace_cons, beq_false_of_ne (Ne.symm hc)]
      exact fun heq => ih hrest (List.cons.inj heq).2

variable {node : Node}

theorem takesEffect_dropNextNode {target : Int} (h : target ∈ node.nextNodes) :
    (dropNextNode target).TakesEffect node where
  applied := by rw [apply, if_pos h]; rfl
  changed := by
    left
    rw [run_dropNextNode]
    show node.nextNodes.erase target ≠ node.nextNodes
    intro heq
    have hlength := List.length_erase_of_mem h
    have hpos := List.length_pos_of_mem h
    rw [heq] at hlength
    omega

theorem takesEffect_repointNextNode {target newTarget : Int} (h : target ∈ node.nextNodes)
    (hne : newTarget ≠ target) : (repointNextNode target newTarget).TakesEffect node where
  applied := by rw [apply, if_pos h]; rfl
  changed := by
    left
    rw [run_repointNextNode]
    exact replace_ne_self h hne

theorem takesEffect_repointRoute {route : Route} {newTarget : Int} (h : route ∈ node.routes)
    (hne : newTarget ≠ route.target) :
    (repointRoute route.label route.target newTarget).TakesEffect node where
  applied := by rw [apply, if_pos h]; rfl
  changed := by
    right
    rw [run_repointRoute]
    exact replace_ne_self h fun heq => hne (congrArg Route.target heq)

theorem takesEffect_insertErrorRoute {newTarget : Int}
    (h : node.routes.any Route.isErrorRoute = false) :
    (insertErrorRoute newTarget).TakesEffect node where
  applied := by rw [apply, if_neg (by simp [h])]; rfl
  changed := by
    right
    rw [run_insertErrorRoute, h, if_neg Bool.false_ne_true]
    show node.routes ++ _ ≠ node.routes
    simp

theorem isSome_apply_touch (edit : Edit) (node : Node) :
    (edit.apply node.touch).isSome = (edit.apply node).isSome := by
  cases edit <;> simp only [apply, apply_ite Option.isSome] <;> rfl

theorem takesEffect_touch {edit : Edit} :
    edit.TakesEffect node.touch ↔ edit.TakesEffect node := by
  constructor
  · rintro ⟨happlied, hchanged⟩
    rw [isSome_apply_touch] at happlied
    rw [run_touch] at hchanged
    exact ⟨happlied, hchanged⟩
  · rintro ⟨happlied, hchanged⟩
    refine ⟨by rw [isSome_apply_touch, happlied], ?_⟩
    rw [run_touch]
    exact hchanged

/-- An edit tells what it did to the node. -/
theorem description_of_apply {edit : Edit} {edited : Node} {told : String}
    (h : edit.apply node = some (edited, told)) : told = edit.description node.number := by
  cases edit <;> simp only [apply] at h <;> split at h <;> cases h <;> rfl

end Edit

/-! ### Edits one after another -/

/-- Edits of a node that each take effect when their turn comes. -/
inductive Effective : Node → List Edit → Prop
  | nil {node : Node} : Effective node []
  | cons {node : Node} {edit : Edit} {rest : List Edit} :
    edit.TakesEffect node → Effective (edit.run node) rest → Effective node (edit :: rest)

namespace Effective

variable {node : Node}

theorem append {first second : List Edit} (hfirst : Effective node first)
    (hsecond : Effective (first.foldl (fun node edit => edit.run node) node) second) :
    Effective node (first ++ second) := by
  induction hfirst with
  | nil => exact hsecond
  | cons htakes _ ih => exact .cons htakes (ih hsecond)

/-- The edit in the middle takes effect on what the edits before it leave. -/
theorem takesEffect {before after : List Edit} {edit : Edit}
    (h : Effective node (before ++ edit :: after)) :
    edit.TakesEffect (before.foldl (fun node edit => edit.run node) node) := by
  induction before generalizing node with
  | nil =>
    cases h with
    | cons htakes _ => exact htakes
  | cons first rest ih =>
    cases h with
    | cons _ hrest => exact ih hrest

theorem of_touch {edits : List Edit} (h : Effective node.touch edits) : Effective node edits := by
  cases h with
  | nil => exact .nil
  | cons htakes hrest =>
    rw [Edit.run_touch] at hrest
    exact .cons (Edit.takesEffect_touch.1 htakes) hrest

end Effective

/-! ### The edits proposed for a node -/

section Proposed

variable (policy : Policy) (known : List Int) (node : Node)

/-- Next nodes can be dropped as often as they occur. -/
theorem effective_dropNextNode {targets next : List Int} (routes : List Route)
    (h : targets.Subperm next) :
    Effective (node.withExits next routes) (targets.map Edit.dropNextNode) := by
  induction targets generalizing next with
  | nil => exact .nil
  | cons target rest ih =>
    have hmem : target ∈ next := h.subset List.mem_cons_self
    have hrest : rest.Subperm (next.erase target) := by
      have herase := h.erase target
      rwa [List.erase_cons_head] at herase
    rw [List.map_cons]
    refine .cons (Edit.takesEffect_dropNextNode hmem) ?_
    rw [Edit.run_dropNextNode]
    exact ih hrest

theorem effective_nextEdits (routes : List Route) :
    Effective (node.withExits node.nextNodes routes) (nextEdits policy known node) := by
  cases hexit : hasExit known node with
  | true =>
    rw [nextEdits_of_hasExit policy known node hexit]
    exact effective_dropNextNode node routes List.filter_sublist.subperm
  | false =>
    cases hnext : node.nextNodes with
    | nil =>
      rw [nextEdits_of_nextNodes_eq_nil policy known node hnext]
      exact .nil
    | cons first later =>
      have hdrop (head : Int) :
          Effective (node.withExits (head :: later) routes) (later.map Edit.dropNextNode) :=
        effective_dropNextNode node routes (List.sublist_cons_self head later).subperm
      rw [nextEdits_of_not_hasExit policy known node hexit hnext]
      cases htarget : policy.target? known node.number first with
      | none => exact hdrop first
      | some newTarget =>
        have hstray : first ∉ known := by
          have hnot := List.any_eq_false.1 hexit first (hnext ▸ List.mem_cons_self)
          simpa using hnot
        have hne : newTarget ≠ first :=
          fun heq => hstray (heq ▸ Policy.mem_of_target? htarget)
        refine .cons (Edit.takesEffect_repointNextNode List.mem_cons_self hne) ?_
        rw [run_repointNextNode_cons]
        exact hdrop newTarget

/-- Routes that are led elsewhere one by one are all found. -/
theorem effective_repointRoute {lead : Route → Option Int}
    (hlead : ∀ route target, lead route = some target →
      target ≠ route.target ∧ lead { route with target } = none)
    (next : List Int) (done routes : List Route) (hdone : ∀ route ∈ done, lead route = none) :
    Effective (node.withExits next (done ++ routes))
      (routes.filterMap fun route =>
        (lead route).map (Edit.repointRoute route.label route.target)) := by
  induction routes generalizing done with
  | nil => exact .nil
  | cons route rest ih =>
    cases h : lead route with
    | none =>
      have hrest := ih (done ++ [route]) (List.forall_mem_append.2
        ⟨hdone, fun other hmem => List.mem_singleton.1 hmem ▸ h⟩)
      rw [List.append_assoc] at hrest
      rw [List.filterMap_cons_none (by rw [h, Option.map_none])]
      exact hrest
    | some target =>
      obtain ⟨hne, hled⟩ := hlead route target h
      have hmem : route ∉ done := by
        intro hmem
        rw [hdone route hmem] at h
        cases h
      have hrest := ih (done ++ [{ route with target }]) (List.forall_mem_append.2
        ⟨hdone, fun other hmem => List.mem_singleton.1 hmem ▸ hled⟩)
      rw [List.append_assoc] at hrest
      rw [List.filterMap_cons_some (by rw [h, Option.map_some])]
      refine .cons (Edit.takesEffect_repointRoute ?_ hne) ?_
      · exact List.mem_append_right done List.mem_cons_self
      · rw [run_repointRoute_append node next hmem]
        exact hrest

theorem effective_routeEdits (next : List Int) :
    Effective (node.withExits next node.routes) (routeEdits policy known node) := by
  rw [routeEdits_eq]
  refine effective_repointRoute node (fun route target h => ?_) next [] node.routes nofun
  obtain ⟨hstray, hknown⟩ := mem_of_reroute? policy known node h
  exact ⟨fun heq => hstray (heq ▸ hknown), reroute?_rerouted policy known node h⟩

theorem effective_errorEdits {routes : List Route} (next : List Int)
    (h : routes.any Route.isErrorRoute = node.routes.any Route.isErrorRoute) :
    Effective (node.withExits next routes) (errorEdits policy known node) := by
  rw [errorEdits]
  split
  · next hlacks =>
    cases policy.target? known node.number node.number with
    | none => exact .nil
    | some target =>
      have hany : routes.any Route.isErrorRoute = false := h.trans (Bool.eq_false_iff.2 hlacks.2.2)
      exact .cons (Edit.takesEffect_insertErrorRoute hany) .nil
  · exact .nil

/-- All edits proposed for a node take effect. -/
theorem effective_edits : Effective node (edits policy known node) := by
  apply Effective.of_touch
  show Effective (node.withExits node.nextNodes node.routes) (edits policy known node)
  rw [edits, List.append_assoc]
  refine (effective_nextEdits policy known node node.routes).append ?_
  rw [foldl_run_nextEdits]
  refine (effective_routeEdits policy known node _).append ?_
  rw [foldl_run_routeEdits]
  apply effective_errorEdits
  rw [List.any_map]
  rfl

end Proposed

/-! ### The fixes of a table -/

theorem number_foldl_run (edits : List Edit) (node : Node) :
    (edits.foldl (fun node edit => edit.run node) node).number = node.number := by
  induction edits generalizing node with
  | nil => rfl
  | cons edit rest ih => rw [List.foldl_cons, ih, Edit.number_run]

namespace Fix

/-- The number of the node that a fix is for. -/
def number (nodes : List Node) (fix : Fix) : Int :=
  (Graph.numbers nodes).getD fix.position 0

theorem number_eq {nodes : List Node} {fix : Fix} {node : Node}
    (h : nodes[fix.position]? = some node) : fix.number nodes = node.number := by
  rw [number, Graph.numbers, List.getD_eq_getElem?_getD, List.getElem?_map, h]
  rfl

theorem snd_apply {fix : Fix} {table : Table} {node : Node}
    (hnode : table.nodes[fix.position]? = some node) (h : fix.edit.TakesEffect node) :
    (fix.apply table).2 = some (fix.edit.description node.number) := by
  obtain ⟨⟨edited, told⟩, happly⟩ := Option.isSome_iff_exists.1 h.applied
  rw [apply, hnode]
  dsimp only
  rw [happly, Edit.description_of_apply happly]

theorem snd_applyAll_concat (before : List Fix) (fix : Fix) (table : Table) :
    (applyAll (before ++ [fix]) table).2 =
      (applyAll before table).2 ++ (fix.apply (applyAll before table).1).2.toList := by
  rw [applyAll, List.foldl_append]
  rfl

end Fix

section Pass

variable (policy : Policy) (table : Table)

/-- A fix meets its node as the earlier fixes have left it, and takes effect on it. -/
theorem takesEffect_of_fixes_eq {before after : List Fix} {fix : Fix}
    (h : fixes policy table.nodes = before ++ fix :: after) :
    ∃ node, (Fix.applyAll before table).1.nodes[fix.position]? = some node ∧
      node.number = fix.number table.nodes ∧ fix.edit.TakesEffect node := by
  have hmem : fix ∈ fixes policy table.nodes := by
    rw [h]
    exact List.mem_append_right before List.mem_cons_self
  obtain ⟨node, hnode, -⟩ := mem_fixes.1 hmem
  have hedits : ((before.filter (·.position = fix.position)).map Fix.edit
      ++ fix.edit :: (after.filter (·.position = fix.position)).map Fix.edit) =
        edits policy (Graph.numbers table.nodes) node := by
    have hproposed := edit_fixes policy table.nodes fix.position
    rw [h, List.filter_append, List.filter_cons_of_pos (by simp), List.map_append, List.map_cons,
      hnode] at hproposed
    exact hproposed
  have heffective := effective_edits policy (Graph.numbers table.nodes) node
  rw [← hedits] at heffective
  refine ⟨_, ?_, ?_, heffective.takesEffect⟩
  · rw [Fix.getElem?_nodes_applyAll, hnode, Option.map_some]
  · rw [number_foldl_run, Fix.number_eq hnode]

/-- A pass tells of each of its fixes. -/
theorem snd_applyAll_fixes :
    (Fix.applyAll (fixes policy table.nodes) table).2 =
      (fixes policy table.nodes).map fun fix =>
        fix.edit.description (fix.number table.nodes) := by
  suffices hpart : ∀ before after, fixes policy table.nodes = before ++ after →
      (Fix.applyAll before table).2 =
        before.map fun fix => fix.edit.description (fix.number table.nodes) from
    hpart _ [] (List.append_nil _).symm
  intro before
  induction before using List.reverseRecOn with
  | nil => exact fun _ _ => rfl
  | append_singleton before fix ih =>
    intro after h
    rw [List.append_assoc, List.singleton_append] at h
    obtain ⟨node, hnode, hnumber, htakes⟩ := takesEffect_of_fixes_eq policy table h
    rw [Fix.snd_applyAll_concat, ih _ h, Fix.snd_apply hnode htakes, hnumber, List.map_append]
    rfl

end Pass

/-! ### The issues that fixes are proposed for -/

/-- A fix is for the node of its issue. -/
def Finding.Sited (nodes : List Node) (finding : Finding) : Prop :=
  ∀ fix, finding.fix = some fix → finding.issue.node = fix.number nodes

section Sited

variable {policy : Policy} {nodes : List Node} {finding : Finding}

theorem sited_of_isManual (h : finding.IsManual) : finding.Sited nodes := by
  intro fix hfix
  rw [h.1] at hfix
  cases hfix

theorem node_danglingFinding (policy : Policy) (known : List Int) (position : Nat) (node : Node)
    (repoint : Bool) (reference : Reference) :
    (danglingFinding policy known position node repoint reference).issue.node = node.number := by
  rw [danglingFinding]
  cases reference.origin <;> rfl

theorem position_of_danglingFinding {known : List Int} {position : Nat} {node : Node}
    {repoint : Bool} {reference : Reference} {fix : Fix}
    (h : (danglingFinding policy known position node repoint reference).fix = some fix) :
    fix.position = position := by
  rw [danglingFinding] at h
  cases horigin : reference.origin with
  | nextNode =>
    rw [horigin] at h
    cases repoint with
    | true =>
      obtain ⟨target, -, rfl⟩ := Option.map_eq_some_iff.1 h
      rfl
    | false =>
      obtain rfl := Option.some.inj h
      rfl
  | route =>
    rw [horigin] at h
    obtain ⟨target, -, rfl⟩ := Option.map_eq_some_iff.1 h
    rfl
  | choice =>
    rw [horigin] at h
    cases h

theorem sited_of_mem_findings (h : finding ∈ findings policy nodes) : finding.Sited nodes := by
  simp only [findings, List.mem_append] at h
  rcases h with ((((h | h) | h) | h) | h) | h
  · exact sited_of_isManual (isManual_of_mem_checkNumbers h)
  · rw [checkReferences_eq] at h
    obtain ⟨position, node, hnode, hmem⟩ := mem_overNodes.1 h
    obtain ⟨repoint, reference, rfl⟩ := exists_of_mem_referenceFindings hmem
    intro fix hfix
    rw [node_danglingFinding, Fix.number_eq (position_of_danglingFinding hfix ▸ hnode)]
  · exact sited_of_isManual (isManual_of_mem_checkContent h)
  · exact sited_of_isManual (isManual_of_mem_checkReached h)
  · exact sited_of_isManual (isManual_of_mem_checkExits h)
  · rw [checkErrorRoutes_eq] at h
    obtain ⟨position, node, hnode, hmem⟩ := mem_overNodes.1 h
    rw [errorFindings] at hmem
    split at hmem
    · rw [List.mem_singleton.1 hmem]
      intro fix hfix
      obtain ⟨target, -, rfl⟩ := Option.map_eq_some_iff.1 hfix
      have hnumber : Fix.number nodes ⟨position, .insertErrorRoute target⟩ = node.number :=
        Fix.number_eq hnode
      exact hnumber.symm
    · exact absurd hmem List.not_mem_nil

/-- The fixes are for the nodes of the fixable issues, in their order. -/
theorem map_node_fixable (policy : Policy) (nodes : List Node) :
    ((issues policy nodes).filter (·.fixable)).map Issue.node =
      (fixes policy nodes).map (Fix.number nodes) := by
  have hall : ∀ finding ∈ findings policy nodes, finding.Coherent ∧ finding.Sited nodes :=
    fun finding hmem => ⟨coherent_of_mem_findings hmem, sited_of_mem_findings hmem⟩
  rw [issues, fixes]
  generalize findings policy nodes = found at hall
  induction found with
  | nil => rfl
  | cons finding rest ih =>
    obtain ⟨hcoherent, hsited⟩ := hall finding List.mem_cons_self
    have hrest := ih fun other hmem => hall other (List.mem_cons_of_mem finding hmem)
    rw [Finding.Coherent] at hcoherent
    cases hfix : finding.fix with
    | none =>
      rw [hfix, Option.isSome_none] at hcoherent
      rw [List.map_cons, List.filter_cons_of_neg (by simp [hcoherent]),
        List.filterMap_cons_none hfix]
      exact hrest
    | some fix =>
      rw [hfix, Option.isSome_some] at hcoherent
      rw [List.map_cons, List.filter_cons_of_pos hcoherent, List.filterMap_cons_some hfix,
        List.map_cons, List.map_cons, hsited fix hfix, hrest]

end Sited

/-! ### What a description tells -/

/-- A description that begins with a node. -/
def Concerns (description : String) (number : Int) : Prop :=
  ∃ deed : String, description = s!"Node {number}: {deed}"

/-- The number in front of the colon is the only one that a description begins with. -/
theorem eq_of_concerns {description : String} {m n : Int} (hm : Concerns description m)
    (hn : Concerns description n) : m = n := by
  have hfront (number : Int) (deed : String) :
      (s!"Node {number}: {deed}".toList).takeWhile (· ≠ ':') =
        "Node ".toList ++ (toString number).toList := by
    have hno : ∀ c ∈ "Node ".toList ++ (toString number).toList, decide (c ≠ ':') = true := by
      intro c hc
      rw [decide_eq_true_eq]
      rintro rfl
      rcases List.mem_append.1 hc with hc | hc
      · exact absurd hc (by decide)
      · exact Text.not_mem_toString (by decide) number hc
    have htext : s!"Node {number}: {deed}".toList =
        ("Node ".toList ++ (toString number).toList) ++ ':' :: ' ' :: deed.toList := by
      show ("Node " ++ toString number ++ ": " ++ deed).toList = _
      rw [String.toList_append, String.toList_append, String.toList_append, List.append_assoc]
      rfl
    rw [htext, List.takeWhile_append_of_pos hno]
    simp
  obtain ⟨deed, rfl⟩ := hm
  obtain ⟨other, heq⟩ := hn
  have hdigits := congrArg (fun text : String => text.toList.takeWhile (· ≠ ':')) heq
  simp only [hfront, List.append_cancel_left_eq] at hdigits
  have hread := congrArg Text.readInteger hdigits
  rw [Text.readInteger_toString, Text.readInteger_toString] at hread
  exact Option.some.inj hread

theorem exists_foldl_append (texts : List String) (start : String) :
    ∃ rest, texts.foldl (· ++ ·) start = start ++ rest := by
  induction texts generalizing start with
  | nil => exact ⟨"", String.append_empty.symm⟩
  | cons text later ih =>
    obtain ⟨rest, hrest⟩ := ih (start ++ text)
    exact ⟨text ++ rest, by rw [List.foldl_cons, hrest, String.append_assoc]⟩

theorem concerns_foldl {colon deed : String} (h : colon = ": " ++ deed) (number : Int)
    (texts : List String) :
    Concerns (texts.foldl (· ++ ·) ("Node " ++ toString number ++ colon)) number := by
  obtain ⟨rest, hrest⟩ := exists_foldl_append texts ("Node " ++ toString number ++ colon)
  refine ⟨deed ++ rest, ?_⟩
  show _ = "Node " ++ toString number ++ ": " ++ (deed ++ rest)
  rw [hrest, h]
  simp only [String.append_assoc]

theorem concerns_description (edit : Edit) (number : Int) :
    Concerns (edit.description number) number := by
  cases edit with
  | dropNextNode target =>
    have h : ": removed dangling next node " = ": " ++ "removed dangling next node " := by
      decide +kernel
    exact concerns_foldl h number [toString target]
  | repointNextNode target newTarget =>
    have h : ": re-pointed dangling next node " = ": " ++ "re-pointed dangling next node " := by
      decide +kernel
    exact concerns_foldl h number [toString target, " to ", toString newTarget]
  | repointRoute label target newTarget =>
    have h : ": re-pointed route '" = ": " ++ "re-pointed route '" := by decide +kernel
    exact concerns_foldl h number
      [label, "' from ", toString target, " to ", toString newTarget]
  | insertErrorRoute newTarget =>
    have h : ": added '" = ": " ++ "added '" := by decide +kernel
    exact concerns_foldl h number [errorLabel, "' route to ", toString newTarget]

/-- The description of an edit concerns one node only. -/
theorem concerns_description_iff {edit : Edit} {m n : Int} :
    Concerns (edit.description m) n ↔ n = m :=
  ⟨fun h => eq_of_concerns h (concerns_description edit m),
    fun h => h ▸ concerns_description edit m⟩

/-- **Every promised fix takes effect.** A pass applies as many fixes as it finds fixable issues,
and what it tells of the fixes concerns the nodes of these issues, one after another. Each fix finds
its node as the fixes before it leave it, finds there what it is to change, and changes it: the
nodes after the fix are the nodes before it with the changed one in the place of that node. The
table after all fixes is the one that is returned, and its text the one that is reported. -/
theorem fixes_take_effect (policy : Policy) (table : Table) :
    let report := (validateTable policy true table).1
    let fixed := (validateTable policy true table).2
    report.appliedFixes.length = report.fixableCount ∧
      List.Forall₂ (fun issue description => ∀ n, Concerns description n ↔ n = issue.node)
        (report.issues.filter (·.fixable)) report.appliedFixes ∧
      (∀ before fix after, fixes policy table.nodes = before ++ fix :: after →
        ∃ node, (Fix.applyAll before table).1.nodes[fix.position]? = some node ∧
          fix.edit.TakesEffect node ∧
          (Fix.applyAll (before ++ [fix]) table).1.nodes =
            (Fix.applyAll before table).1.nodes.set fix.position (fix.edit.run node)) ∧
      fixed = (Fix.applyAll (fixes policy table.nodes) table).1 ∧
      report.fixedText = some fixed.toText := by
  intro report fixed
  have hissues : report.issues = issues policy table.nodes := issues_validateTable policy table true
  have happlied : report.appliedFixes = (fixes policy table.nodes).map fun fix =>
      fix.edit.description (fix.number table.nodes) := snd_applyAll_fixes policy table
  refine ⟨?_, ?_, ?_, ?_, ?_⟩
  · rw [happlied, List.length_map, fixableCount_validateTable]
  · have hnumbers : List.Forall₂ (fun issue fix => issue.node = Fix.number table.nodes fix)
        ((issues policy table.nodes).filter (·.fixable)) (fixes policy table.nodes) := by
      have heq := map_node_fixable policy table.nodes
      rw [← List.forall₂_eq_eq_eq, List.forall₂_map_left_iff, List.forall₂_map_right_iff] at heq
      exact heq
    rw [hissues, happlied, List.forall₂_map_right_iff]
    refine hnumbers.imp fun issue fix hnode n => ?_
    rw [concerns_description_iff, hnode]
  · intro before fix after h
    obtain ⟨node, hnode, -, htakes⟩ := takesEffect_of_fixes_eq policy table h
    exact ⟨node, hnode, htakes, Fix.nodes_applyAll_concat hnode⟩
  · exact congrArg Prod.snd (validateTable_true policy table)
  · exact congrArg (fun result => result.1.fixedText) (validateTable_true policy table)

end DialogTable.Validation
