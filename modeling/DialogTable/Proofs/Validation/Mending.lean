import DialogTable.Proofs.Graph
import DialogTable.Proofs.Validation.Edits
import DialogTable.Proofs.Validation.Policy

/-!
# Mended nodes

The fixes that the checks propose are edits of single nodes, and which ones depends on the node and
on the known numbers only (`fixes_eq`). `mend` is what they make of a node: stray next nodes go, but
for one that is led elsewhere where the node had no other exit, stray routes are led elsewhere, and
an action gets its route for errors. A node that is mended is settled: nothing more is proposed for
it (`settled_mend`).
-/

namespace DialogTable

/-- The references from the choices of a node's rich content. -/
def Node.choices (node : Node) : List Reference :=
  match RichContent.parse node.richContentType node.richContent with
  | none => []
  | some content => content.destinations.map fun (label, target) =>
    { target, origin := .choice, label := some label }

theorem Node.references_eq (node : Node) :
    node.references =
      node.nextNodes.map (fun target => { target, origin := .nextNode, label := none })
        ++ node.routes.map (fun route =>
          { target := route.target, origin := .route, label := some route.label })
        ++ node.choices := rfl

theorem isErrorRoute_errorLabel (target : Int) :
    Route.isErrorRoute { label := errorLabel, target } = true :=
  beq_self_eq_true (Text.foldCase errorLabel.toList)

namespace Validation

/-! ### The edits proposed for a node -/

section Edits

variable (policy : Policy) (known : List Int) (node : Node)

/-- One of the next nodes exists. -/
def hasExit : Bool :=
  node.nextNodes.any (· ∈ known)

/-- The next nodes that do not exist. -/
def strayNextNodes : List Int :=
  node.nextNodes.filter (· ∉ known)

/-- The routes to nodes that do not exist. -/
def strayRoutes : List Route :=
  node.routes.filter (·.target ∉ known)

/-- An action with a command and without a route for errors. -/
def LacksErrorRoute : Prop :=
  node.kind = .action ∧ node.command ≠ none ∧ ¬ node.routes.any Route.isErrorRoute

instance : Decidable (LacksErrorRoute node) :=
  inferInstanceAs (Decidable (_ ∧ _))

/-- Stray next nodes are dropped. The first one is led elsewhere if the node has no other exit. -/
def nextEdits : List Edit :=
  match strayNextNodes known node with
  | [] => []
  | target :: later =>
    (if hasExit known node then [.dropNextNode target]
      else ((policy.target? known node.number target).map (.repointNextNode target)).toList)
      ++ later.map .dropNextNode

/-- Stray routes are led elsewhere. -/
def routeEdits : List Edit :=
  (strayRoutes known node).filterMap fun route =>
    (policy.target? known node.number route.target).map (.repointRoute route.label route.target)

/-- A missing route for errors is added. -/
def errorEdits : List Edit :=
  if LacksErrorRoute node then
    ((policy.target? known node.number node.number).map .insertErrorRoute).toList
  else []

/-- The edits proposed for a node, in the order in which they are applied. -/
def edits : List Edit :=
  nextEdits policy known node ++ routeEdits policy known node ++ errorEdits policy known node

/-- Nothing is proposed for the node. -/
def Settled : Prop :=
  edits policy known node = []

instance : Decidable (Settled policy known node) :=
  inferInstanceAs (Decidable (_ = _))

/-- The node after the edits proposed for it. -/
def mend : Node :=
  (edits policy known node).foldl (fun node edit => edit.run node) node

/-- The next nodes of a mended node. -/
def mendedNextNodes : List Int :=
  if hasExit known node then node.nextNodes.filter (· ∈ known)
  else match node.nextNodes with
    | [] => []
    | target :: _ => [(policy.target? known node.number target).getD target]

/-- Where a route is led, unless it stays as it is. -/
def reroute? (route : Route) : Option Int :=
  if route.target ∈ known then none else policy.target? known node.number route.target

/-- The routes of a mended node. -/
def mendedRoutes : List Route :=
  (node.routes.map fun route =>
      { route with target := (reroute? policy known node route).getD route.target })
    ++ (if LacksErrorRoute node then
        ((policy.target? known node.number node.number).map fun target =>
          { label := errorLabel, target }).toList
      else [])

end Edits

/-! ### What the edits do -/

/-- Erasing what satisfies a condition, one by one, leaves the others. -/
theorem foldl_erase_filter (p : Int → Bool) (numbers : List Int) :
    (numbers.filter p).foldl List.erase numbers = numbers.filter (!p ·) := by
  have hkeep : ∀ (n : Int) (erased rest : List Int), n ∉ erased →
      erased.foldl List.erase (n :: rest) = n :: erased.foldl List.erase rest := by
    intro n erased
    induction erased with
    | nil => exact fun _ _ => rfl
    | cons m erased ih =>
      intro rest hn
      rw [List.mem_cons, not_or] at hn
      rw [List.foldl_cons, List.foldl_cons, List.erase_cons_tail (by simpa using hn.1), ih _ hn.2]
  induction numbers with
  | nil => rfl
  | cons n rest ih =>
    cases h : p n with
    | true =>
      rw [List.filter_cons_of_pos h, List.foldl_cons, List.erase_cons_head, ih,
        List.filter_cons_of_neg (by simp [h])]
    | false =>
      have hn : n ∉ rest.filter p := fun hmem => by simp [h] at hmem
      rw [List.filter_cons_of_neg (by simp [h]), hkeep n _ rest hn, ih,
        List.filter_cons_of_pos (by simp [h])]

/-- Erasing all but the first number leaves that one, though perhaps from another place. -/
theorem foldl_erase_tail (first : Int) (rest : List Int) :
    rest.foldl List.erase (first :: rest) = [first] := by
  induction rest with
  | nil => rfl
  | cons next rest ih =>
    have herase : (first :: next :: rest).erase next = first :: rest := by
      by_cases h : first = next
      · rw [h, List.erase_cons_head]
      · rw [List.erase_cons_tail (by simpa using h), List.erase_cons_head]
    rw [List.foldl_cons, herase, ih]

section Runs

variable (policy : Policy) (known : List Int) (node : Node)

theorem touch_foldl_run (edits : List Edit) :
    (edits.foldl (fun node edit => edit.run node) node).touch =
      edits.foldl (fun node edit => edit.run node) node.touch := by
  induction edits generalizing node with
  | nil => rfl
  | cons edit rest ih =>
    rw [List.foldl_cons, List.foldl_cons, ih, Edit.run_touch]
    rfl

theorem foldl_run_dropNextNode (targets next : List Int) (routes : List Route) :
    (targets.map Edit.dropNextNode).foldl (fun node edit => edit.run node)
        (node.withExits next routes) =
      node.withExits (targets.foldl List.erase next) routes := by
  induction targets generalizing next with
  | nil => rfl
  | cons target rest ih =>
    rw [List.map_cons, List.foldl_cons, Edit.run_dropNextNode, List.foldl_cons]
    exact ih (next.erase target)

theorem strayNextNodes_of_not_hasExit (h : hasExit known node = false) :
    strayNextNodes known node = node.nextNodes := by
  rw [strayNextNodes, List.filter_eq_self]
  intro target hmem
  have hnot := List.any_eq_false.1 h target hmem
  simpa using hnot

theorem nextEdits_of_hasExit (h : hasExit known node = true) :
    nextEdits policy known node = (strayNextNodes known node).map Edit.dropNextNode := by
  rw [nextEdits]
  cases strayNextNodes known node with
  | nil => rfl
  | cons target later =>
    dsimp only
    rw [if_pos h]
    rfl

theorem nextEdits_of_not_hasExit (h : hasExit known node = false) {target : Int} {later : List Int}
    (hnext : node.nextNodes = target :: later) :
    nextEdits policy known node =
      ((policy.target? known node.number target).map (Edit.repointNextNode target)).toList
        ++ later.map Edit.dropNextNode := by
  rw [nextEdits, strayNextNodes_of_not_hasExit known node h, hnext]
  dsimp only
  rw [h, if_neg Bool.false_ne_true]

theorem nextEdits_of_nextNodes_eq_nil (h : node.nextNodes = []) :
    nextEdits policy known node = [] := by
  rw [nextEdits, strayNextNodes, h]
  rfl

theorem run_repointNextNode_cons (target newTarget : Int) (later : List Int)
    (routes : List Route) :
    (Edit.repointNextNode target newTarget).run (node.withExits (target :: later) routes) =
      node.withExits (newTarget :: later) routes := by
  rw [Edit.run_repointNextNode]
  exact congrArg (fun next => node.withExits next routes) List.replace_cons_self

theorem foldl_run_nextEdits (routes : List Route) :
    (nextEdits policy known node).foldl (fun node edit => edit.run node)
        (node.withExits node.nextNodes routes) =
      node.withExits (mendedNextNodes policy known node) routes := by
  cases hexit : hasExit known node with
  | true =>
    rw [nextEdits_of_hasExit policy known node hexit, foldl_run_dropNextNode, strayNextNodes,
      foldl_erase_filter, mendedNextNodes, if_pos hexit]
    simp
  | false =>
    rw [mendedNextNodes, hexit, if_neg Bool.false_ne_true]
    cases hnext : node.nextNodes with
    | nil => rw [nextEdits_of_nextNodes_eq_nil policy known node hnext, List.foldl_nil]
    | cons target later =>
      rw [nextEdits_of_not_hasExit policy known node hexit hnext]
      dsimp only
      cases policy.target? known node.number target with
      | none =>
        rw [Option.map_none, Option.toList_none, List.nil_append, foldl_run_dropNextNode,
          foldl_erase_tail, Option.getD_none]
      | some newTarget =>
        rw [Option.map_some, Option.toList_some, List.singleton_append, List.foldl_cons,
          run_repointNextNode_cons, foldl_run_dropNextNode, foldl_erase_tail, Option.getD_some]

/-- The first route that is like the given one is led elsewhere. -/
theorem run_repointRoute_append (next : List Int) {done : List Route} {route : Route}
    (h : route ∉ done) (target : Int) (rest : List Route) :
    (Edit.repointRoute route.label route.target target).run
        (node.withExits next (done ++ route :: rest)) =
      node.withExits next (done ++ { route with target } :: rest) := by
  rw [Edit.run_repointRoute]
  apply congrArg (node.withExits next)
  have hreplace : (done ++ route :: rest).replace route { route with target } =
      done ++ { route with target } :: rest := by
    rw [List.replace_append_right h, List.replace_cons_self]
  exact hreplace

/-- Routes are led elsewhere one by one. Those that are done are not met again. -/
theorem foldl_run_repointRoute {lead : Route → Option Int}
    (hlead : ∀ route target, lead route = some target → lead { route with target } = none)
    (next : List Int) (done routes : List Route) (hdone : ∀ route ∈ done, lead route = none) :
    (routes.filterMap fun route =>
          (lead route).map (Edit.repointRoute route.label route.target)).foldl
        (fun node edit => edit.run node) (node.withExits next (done ++ routes)) =
      node.withExits next (done ++ routes.map fun route =>
        { route with target := (lead route).getD route.target }) := by
  induction routes generalizing done with
  | nil => rfl
  | cons route rest ih =>
    cases h : lead route with
    | none =>
      have hdone' : ∀ other ∈ done ++ [route], lead other = none := by
        intro other hmem
        rcases List.mem_append.1 hmem with hmem | hmem
        · exact hdone other hmem
        · rw [List.mem_singleton.1 hmem, h]
      have hrest := ih (done ++ [route]) hdone'
      rw [List.append_assoc, List.append_assoc] at hrest
      rw [List.filterMap_cons_none (by rw [h, Option.map_none]), List.map_cons, h, Option.getD_none]
      exact hrest
    | some target =>
      have hmem : route ∉ done := by
        intro hmem
        rw [hdone route hmem] at h
        cases h
      have hdone' : ∀ other ∈ done ++ [{ route with target }], lead other = none := by
        intro other hmem
        rcases List.mem_append.1 hmem with hmem | hmem
        · exact hdone other hmem
        · rw [List.mem_singleton.1 hmem]
          exact hlead route target h
      have hrest := ih (done ++ [{ route with target }]) hdone'
      rw [List.append_assoc, List.append_assoc] at hrest
      rw [List.filterMap_cons_some (by rw [h, Option.map_some]), List.foldl_cons,
        run_repointRoute_append node next hmem, List.map_cons, h, Option.getD_some]
      exact hrest

theorem routeEdits_eq :
    routeEdits policy known node = node.routes.filterMap fun route =>
      (reroute? policy known node route).map (Edit.repointRoute route.label route.target) := by
  rw [routeEdits, strayRoutes, List.filterMap_filter]
  apply List.filterMap_congr
  intro route _
  by_cases h : route.target ∈ known <;> simp [reroute?, h]

theorem mem_of_reroute? {route : Route} {target : Int}
    (h : reroute? policy known node route = some target) : route.target ∉ known ∧ target ∈ known := by
  rw [reroute?] at h
  split at h
  · cases h
  · next hstray => exact ⟨hstray, Policy.mem_of_target? h⟩

theorem reroute?_rerouted {route : Route} {target : Int}
    (h : reroute? policy known node route = some target) :
    reroute? policy known node { route with target } = none :=
  if_pos (mem_of_reroute? policy known node h).2

theorem foldl_run_routeEdits (next : List Int) :
    (routeEdits policy known node).foldl (fun node edit => edit.run node)
        (node.withExits next node.routes) =
      node.withExits next (node.routes.map fun route =>
        { route with target := (reroute? policy known node route).getD route.target }) := by
  rw [routeEdits_eq]
  exact foldl_run_repointRoute node (fun _ _ => reroute?_rerouted policy known node) next []
    node.routes nofun

theorem foldl_run_errorEdits {routes : List Route} (next : List Int)
    (h : routes.any Route.isErrorRoute = node.routes.any Route.isErrorRoute) :
    (errorEdits policy known node).foldl (fun node edit => edit.run node)
        (node.withExits next routes) =
      node.withExits next (routes ++ (if LacksErrorRoute node then
        ((policy.target? known node.number node.number).map fun target =>
          { label := errorLabel, target }).toList
      else [])) := by
  rw [errorEdits]
  split
  · next hlacks =>
    have hany : (node.withExits next routes).routes.any Route.isErrorRoute = false :=
      h.trans (Bool.eq_false_iff.2 hlacks.2.2)
    cases policy.target? known node.number node.number with
    | none => exact congrArg (node.withExits next) (List.append_nil routes).symm
    | some target =>
      rw [Option.map_some, Option.map_some, Option.toList_some, Option.toList_some,
        List.foldl_cons, Edit.run_insertErrorRoute, hany, if_neg Bool.false_ne_true]
      rfl
  · exact congrArg (node.withExits next) (List.append_nil routes).symm

theorem touch_mend :
    (mend policy known node).touch =
      node.withExits (mendedNextNodes policy known node) (mendedRoutes policy known node) := by
  have hself : node.touch = node.withExits node.nextNodes node.routes := rfl
  have hlabels : ∀ lead : Route → Int,
      (node.routes.map fun route => { route with target := lead route }).any Route.isErrorRoute =
        node.routes.any Route.isErrorRoute := by
    intro lead
    rw [List.any_map]
    rfl
  rw [mend, touch_foldl_run, edits, List.foldl_append, List.foldl_append, hself,
    foldl_run_nextEdits, foldl_run_routeEdits, foldl_run_errorEdits policy known node _ (hlabels _),
    mendedRoutes]

theorem mend_of_settled {policy : Policy} {known : List Int} {node : Node}
    (h : Settled policy known node) : mend policy known node = node := by
  rw [mend, h, List.foldl_nil]

/-- The first edit of a node forgets its line, whether it changes anything or not. -/
theorem mend_of_not_settled {policy : Policy} {known : List Int} {node : Node}
    (h : ¬ Settled policy known node) :
    mend policy known node =
      node.withExits (mendedNextNodes policy known node) (mendedRoutes policy known node) := by
  rw [← touch_mend, mend, touch_foldl_run]
  rw [Settled] at h
  cases hedits : edits policy known node with
  | nil => exact absurd hedits h
  | cons edit later => rw [List.foldl_cons, List.foldl_cons, Edit.run_touch]

/-- A mended node has other next nodes and routes, and is the same else. -/
theorem mend_eq :
    mend policy known node =
      { node with
        nextNodes := mendedNextNodes policy known node
        routes := mendedRoutes policy known node
        line := (mend policy known node).line } := by
  have htouch := congrArg
    (fun touched : Node => { touched with line := (mend policy known node).line })
    (touch_mend policy known node)
  exact htouch

theorem number_mend : (mend policy known node).number = node.number := by
  rw [mend_eq]

theorem kind_mend : (mend policy known node).kind = node.kind := by
  rw [mend_eq]

theorem nextNodes_mend :
    (mend policy known node).nextNodes = mendedNextNodes policy known node := by
  rw [mend_eq]

theorem routes_mend : (mend policy known node).routes = mendedRoutes policy known node := by
  rw [mend_eq]

theorem choices_mend : (mend policy known node).choices = node.choices := by
  rw [mend_eq]
  rfl

theorem cells_mend : (mend policy known node).cells = node.cells := by
  rw [mend_eq]

theorem columnText_mend {column : Column} (hnext : column ≠ .nextNodes)
    (hwhat : column ≠ .whatNext) :
    (mend policy known node).columnText column = node.columnText column := by
  rw [mend_eq]
  cases column <;> first | rfl | exact absurd rfl hnext | exact absurd rfl hwhat

theorem label_mem_of_mem_mendedRoutes {route : Route}
    (h : route ∈ mendedRoutes policy known node) :
    (∃ old ∈ node.routes, old.label = route.label) ∨ route.label = errorLabel := by
  rcases List.mem_append.1 h with h | h
  · obtain ⟨old, hold, rfl⟩ := List.mem_map.1 h
    exact .inl ⟨old, hold, rfl⟩
  · split at h
    · obtain ⟨target, -, rfl⟩ := Option.map_eq_some_iff.1 (Option.mem_toList.1 h)
      exact .inr rfl
    · exact absurd h List.not_mem_nil

/-- Mending writes marks and the label of a new route, and nothing else that was not there. -/
theorem mem_columnText_mend {column : Column} {c : Char}
    (hc : c ∈ ((mend policy known node).columnText column).toList) :
    c ∈ (node.columnText column).toList ∨ Node.IsMark c ∨ c ∈ errorLabel.toList := by
  by_cases hnext : column = .nextNodes
  · subst hnext
    exact .inr (.inl (Node.isMark_of_mem_nextNodes_text hc))
  · by_cases hwhat : column = .whatNext
    · subst hwhat
      rcases Node.mem_whatNext_text hc with hmark | ⟨route, hroute, hlabel⟩
      · exact .inr (.inl hmark)
      · rw [routes_mend] at hroute
        rcases label_mem_of_mem_mendedRoutes policy known node hroute with ⟨old, hold, heq⟩ | heq
        · rw [← heq] at hlabel
          exact .inl (Node.mem_whatNext_text_of_mem_label hold hlabel)
        · rw [heq] at hlabel
          exact .inr (.inr hlabel)
    · rw [columnText_mend policy known node hnext hwhat] at hc
      exact .inl hc

end Runs

/-! ### Mended nodes are settled -/

section Settling

variable (policy : Policy) {known : List Int} {node : Node}

theorem mem_known_of_mem_mendedNextNodes (h : ¬ Alone known node.number) :
    ∀ target ∈ mendedNextNodes policy known node, target ∈ known := by
  intro target hmem
  rw [mendedNextNodes] at hmem
  split at hmem
  · simpa using (List.mem_filter.1 hmem).2
  · split at hmem
    · exact absurd hmem List.not_mem_nil
    · next first _ _ =>
      obtain ⟨newTarget, hnew⟩ := policy.exists_target? h first
      rw [hnew, Option.getD_some, List.mem_singleton] at hmem
      rw [hmem]
      exact Policy.mem_of_target? hnew

theorem target_mem_known_of_mem_mendedRoutes (h : ¬ Alone known node.number) :
    ∀ route ∈ mendedRoutes policy known node, route.target ∈ known := by
  intro route hmem
  rcases List.mem_append.1 hmem with hmem | hmem
  · obtain ⟨old, -, rfl⟩ := List.mem_map.1 hmem
    dsimp only
    rw [reroute?]
    split
    · next hknown => exact hknown
    · obtain ⟨target, htarget⟩ := policy.exists_target? h old.target
      rw [htarget]
      exact Policy.mem_of_target? htarget
  · split at hmem
    · obtain ⟨target, htarget⟩ := policy.exists_target? h node.number
      rw [htarget, Option.map_some, Option.toList_some, List.mem_singleton] at hmem
      rw [hmem]
      exact Policy.mem_of_target? htarget
    · exact absurd hmem List.not_mem_nil

theorem target?_of_alone (h : Alone known node.number) (near : Int) :
    policy.target? known node.number near = none :=
  Policy.target?_eq_none_iff.2 h

theorem strayNextNodes_mend (h : ¬ Alone known node.number ∨ hasExit known node = true) :
    strayNextNodes known (mend policy known node) = [] := by
  rw [strayNextNodes, nextNodes_mend, List.filter_eq_nil_iff]
  intro target hmem
  rcases h with halone | hexit
  · simpa using mem_known_of_mem_mendedNextNodes policy halone target hmem
  · rw [mendedNextNodes, if_pos hexit] at hmem
    simpa using (List.mem_filter.1 hmem).2

theorem strayRoutes_mend (h : ¬ Alone known node.number) :
    strayRoutes known (mend policy known node) = [] := by
  rw [strayRoutes, routes_mend, List.filter_eq_nil_iff]
  intro route hmem
  simpa using target_mem_known_of_mem_mendedRoutes policy h route hmem

/-- Where no other node exists a single stray next node stays. -/
theorem nextNodes_mend_of_alone (h : Alone known node.number)
    (hexit : hasExit known node = false) :
    (mend policy known node).nextNodes = node.nextNodes.take 1 := by
  rw [nextNodes_mend, mendedNextNodes, hexit, if_neg Bool.false_ne_true]
  cases node.nextNodes with
  | nil => rfl
  | cons first later =>
    dsimp only
    rw [target?_of_alone policy h]
    rfl

theorem hasExit_mend_of_alone (h : Alone known node.number) (hexit : hasExit known node = false) :
    hasExit known (mend policy known node) = false := by
  rw [hasExit, nextNodes_mend_of_alone policy h hexit, List.any_eq_false]
  exact fun target hmem => List.any_eq_false.1 hexit target (List.mem_of_mem_take hmem)

theorem routes_mend_of_alone (h : Alone known node.number) :
    (mend policy known node).routes = node.routes := by
  have hreroute : ∀ route, reroute? policy known node route = none := by
    intro route
    rw [reroute?, target?_of_alone policy h, ite_self]
  rw [routes_mend, mendedRoutes, target?_of_alone policy h, Option.map_none, Option.toList_none,
    ite_self, List.append_nil]
  simp only [hreroute, Option.getD_none]
  exact List.map_id node.routes

/-- Where no other node exists nothing is proposed for a single stray next node. -/
theorem nextEdits_mend_of_alone (h : Alone known node.number) :
    nextEdits policy known (mend policy known node) = [] := by
  cases hexit : hasExit known node with
  | true => rw [nextEdits, strayNextNodes_mend policy (.inr hexit)]
  | false =>
    have hexit' := hasExit_mend_of_alone policy h hexit
    rw [nextEdits, strayNextNodes_of_not_hasExit _ _ hexit', nextNodes_mend_of_alone policy h hexit]
    cases node.nextNodes with
    | nil => rfl
    | cons first later =>
      dsimp only [List.take_succ_cons, List.take_zero]
      rw [hexit', if_neg Bool.false_ne_true, number_mend, target?_of_alone policy h]
      rfl

theorem lacksErrorRoute_of_mend (h : LacksErrorRoute (mend policy known node)) :
    LacksErrorRoute node := by
  obtain ⟨hkind, hcommand, hany⟩ := h
  rw [mend_eq] at hkind hcommand hany
  refine ⟨hkind, hcommand, fun hold => hany ?_⟩
  have hmapped : (node.routes.map fun route =>
      { route with target := (reroute? policy known node route).getD route.target }).any
        Route.isErrorRoute = true := by
    rw [List.any_map]
    exact hold
  dsimp only
  rw [mendedRoutes, List.any_append, hmapped, Bool.true_or]

/-- A route for errors is still missing only where it cannot lead anywhere. -/
theorem alone_of_lacksErrorRoute_mend (h : LacksErrorRoute (mend policy known node)) :
    Alone known node.number := by
  by_contra halone
  obtain ⟨target, htarget⟩ := policy.exists_target? halone node.number
  have hmem : { label := errorLabel, target } ∈ (mend policy known node).routes := by
    rw [routes_mend, mendedRoutes, if_pos (lacksErrorRoute_of_mend policy h), htarget]
    exact List.mem_append_right _ List.mem_cons_self
  exact h.2.2 (List.any_eq_true.2 ⟨_, hmem, isErrorRoute_errorLabel target⟩)

theorem nextEdits_mend : nextEdits policy known (mend policy known node) = [] := by
  by_cases halone : Alone known node.number
  · exact nextEdits_mend_of_alone policy halone
  · rw [nextEdits, strayNextNodes_mend policy (.inl halone)]

theorem routeEdits_mend : routeEdits policy known (mend policy known node) = [] := by
  by_cases halone : Alone known node.number
  · rw [routeEdits, number_mend, List.filterMap_eq_nil_iff]
    intro route _
    rw [target?_of_alone policy halone, Option.map_none]
  · rw [routeEdits, strayRoutes_mend policy halone, List.filterMap_nil]

theorem errorEdits_mend : errorEdits policy known (mend policy known node) = [] := by
  rw [errorEdits]
  split
  · next hlacks =>
    have halone := alone_of_lacksErrorRoute_mend policy hlacks
    rw [number_mend, target?_of_alone policy halone, Option.map_none, Option.toList_none]
  · rfl

/-- Mending leaves nothing to propose. -/
theorem settled_mend : Settled policy known (mend policy known node) := by
  rw [Settled, edits, nextEdits_mend, routeEdits_mend, errorEdits_mend]
  rfl

end Settling

end Validation

end DialogTable
