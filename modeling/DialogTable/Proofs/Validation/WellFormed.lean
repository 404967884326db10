import Mathlib.Data.List.Nodup
import DialogTable.Proofs.Validation.Findings

/-!
# Well-formed dialogs

`WellFormed` says without any algorithm what the checks ask of the nodes of a table. The main
statement `issues_eq_nil_iff` says that the checks find nothing exactly in well-formed dialogs.

There is one lemma for each check. Four of the checks find nothing exactly if one condition holds.
The other two look at a decision or an action by way of something else: the exits of a decision are
the edges that leave its number, and a missing route for errors is noted only at an action with a
command. These two agree with their conditions as soon as the other checks find nothing.
-/

namespace DialogTable

/-- A reference of the node leads to the number, whether a node has it or not. -/
def Node.RefersTo (node : Node) (number : Int) : Prop :=
  ∃ reference ∈ node.references, reference.target = number

namespace Validation

/-- A dialog may begin at the nodes of the runtime, and at the lowest of the other numbers. -/
def MayBegin (nodes : List Node) (node : Node) : Prop :=
  node.IsSystem ∨ ∀ other ∈ nodes, ¬ other.IsSystem → node.number ≤ other.number

/-- A tag of the node, or one of its behaviours, is one of the tags for an end. -/
def TaggedAsEnd (policy : Policy) (node : Node) : Prop :=
  ∃ token ∈ node.tokens .nodeTags ++ node.tokens .behaviors, ∃ tag ∈ policy.endpointTags,
    Text.sameLetters tag token = true

/-- What the checks ask of nodes. -/
structure WellFormed (policy : Policy) (nodes : List Node) : Prop where
  distinct : (Graph.numbers nodes).Nodup
  targets : ∀ node ∈ nodes, ∀ reference ∈ node.references, reference.target ∈ Graph.numbers nodes
  content : ∀ node ∈ nodes, node.kind = .decision →
    node.message ≠ none ∨ node.richContent ≠ none
  commands : ∀ node ∈ nodes, node.kind = .action → node.command ≠ none
  reached : ∀ node ∈ nodes, ¬ MayBegin nodes node →
    ∃ other ∈ nodes, other.number ≠ node.number ∧ other.RefersTo node.number
  exits : ∀ node ∈ nodes, node.kind = .decision →
    node.references ≠ [] ∨ TaggedAsEnd policy node
  errorRoutes : ∀ node ∈ nodes, node.kind = .action →
    ∃ route ∈ node.routes, Text.sameLetters route.label errorLabel = true

/-! ### Numbers -/

/-- A number is noted where it comes up again after it was seen once. -/
theorem repeatedNumbers_eq_nil_iff {before : List Int} (hb : before.Nodup) (numbers : List Int) :
    repeatedNumbers before numbers = [] ↔ numbers.Nodup ∧ ∀ n ∈ numbers, n ∉ before := by
  induction numbers generalizing before with
  | nil => simp [repeatedNumbers]
  | cons n rest ih =>
    rw [repeatedNumbers]
    by_cases hn : n ∈ before
    · rw [if_pos (List.count_eq_one_of_mem hb hn)]
      constructor
      · exact fun h => absurd h (List.cons_ne_nil _ _)
      · exact fun h => absurd hn (h.2 n List.mem_cons_self)
    · have hcount : before.count n ≠ 1 := by
        rw [List.count_eq_zero_of_not_mem hn]
        decide
      rw [if_neg hcount, ih (List.nodup_cons.2 ⟨hn, hb⟩), List.nodup_cons, List.forall_mem_cons]
      constructor
      · rintro ⟨hrest, hnew⟩
        have hnot : n ∉ rest := fun hmem => hnew n hmem List.mem_cons_self
        exact ⟨⟨hnot, hrest⟩, hn, fun m hm hbefore => hnew m hm (List.mem_cons_of_mem n hbefore)⟩
      · rintro ⟨⟨hnot, hrest⟩, -, hold⟩
        refine ⟨hrest, fun m hm hmem => ?_⟩
        rcases List.mem_cons.1 hmem with rfl | hmem
        · exact hnot hm
        · exact hold m hm hmem

theorem checkNumbers_eq_nil_iff {nodes : List Node} :
    checkNumbers nodes = [] ↔ (Graph.numbers nodes).Nodup := by
  rw [checkNumbers, List.map_eq_nil_iff, repeatedNumbers_eq_nil_iff List.nodup_nil]
  exact and_iff_left fun n _ => List.not_mem_nil

/-! ### References -/

theorem checkReferences_eq_nil_iff {policy : Policy} {nodes : List Node} :
    checkReferences policy (Graph.ofNodes nodes) = [] ↔ ∀ node ∈ nodes,
      ∀ reference ∈ node.references, reference.target ∈ Graph.numbers nodes := by
  have hnode : ∀ position node, referenceFindings policy (Graph.numbers nodes) position node = [] ↔
      ∀ reference ∈ node.references, reference.target ∈ Graph.numbers nodes := by
    intro position node
    rw [← mapIdx_strayReferences, List.mapIdx_eq_nil_iff, List.filter_eq_nil_iff]
    apply forall₂_congr
    intro reference _
    rw [Bool.not_eq_true', Bool.not_eq_false, decide_eq_true_eq]
  rw [checkReferences_eq, overNodes_eq_nil_iff]
  constructor
  · intro h node hmem
    obtain ⟨position, hposition⟩ := List.getElem?_of_mem hmem
    exact (hnode position node).1 (h position node hposition)
  · exact fun h position node hposition =>
      (hnode position node).2 (h node (List.mem_of_getElem? hposition))

/-! ### Content -/

theorem checkContent_eq_nil_iff {nodes : List Node} :
    checkContent nodes = [] ↔
      (∀ node ∈ nodes, node.kind = .decision → node.message ≠ none ∨ node.richContent ≠ none) ∧
        ∀ node ∈ nodes, node.kind = .action → node.command ≠ none := by
  rw [checkContent, List.filterMap_eq_nil_iff, ← forall₂_and]
  apply forall₂_congr
  intro node _
  cases node.kind with
  | decision =>
    by_cases hm : node.message = none <;> by_cases hr : node.richContent = none <;> simp [hm, hr]
  | action => by_cases h : node.command = none <;> simp [h]

/-! ### Beginnings -/

theorem lowestNumber?_eq_some_iff {nodes : List Node} {node : Node} (hmem : node ∈ nodes)
    (hs : ¬ node.IsSystem) :
    lowestNumber? nodes = some node.number ↔
      ∀ other ∈ nodes, ¬ other.IsSystem → node.number ≤ other.number := by
  have hcandidate : ∀ n, n ∈ (Graph.numbers nodes).filter (fun number => ¬ IsSystemNumber number) ↔
      ∃ other ∈ nodes, ¬ other.IsSystem ∧ other.number = n := by
    intro n
    rw [List.mem_filter, decide_eq_true_eq, Graph.numbers, List.mem_map]
    constructor
    · rintro ⟨⟨other, hother, rfl⟩, hn⟩
      exact ⟨other, hother, hn, rfl⟩
    · rintro ⟨other, hother, hn, rfl⟩
      exact ⟨⟨other, hother, rfl⟩, hn⟩
  rw [lowestNumber?, List.min?_eq_some_iff]
  constructor
  · rintro ⟨-, hleast⟩ other hother hn
    exact hleast other.number ((hcandidate _).2 ⟨other, hother, hn, rfl⟩)
  · intro h
    refine ⟨(hcandidate _).2 ⟨node, hmem, hs, rfl⟩, fun n hn => ?_⟩
    obtain ⟨other, hother, hsystem, rfl⟩ := (hcandidate n).1 hn
    exact h other hother hsystem

theorem isEntry_iff {nodes : List Node} {node : Node} (hmem : node ∈ nodes) :
    isEntry (lowestNumber? nodes) node.number = true ↔ MayBegin nodes node := by
  rw [isEntry, decide_eq_true_eq]
  by_cases hs : node.IsSystem
  · exact ⟨fun _ => .inl hs, fun _ => .inl hs⟩
  · exact or_congr Iff.rfl (lowestNumber?_eq_some_iff hmem hs)

/-- An edge from elsewhere reaches a node exactly if a node with another number refers to it. -/
theorem any_edgesTo_iff {nodes : List Node} {node : Node} (hmem : node ∈ nodes) :
    ((Graph.ofNodes nodes).edgesTo node.number).any (fun edge => edge.source != node.number) = true ↔
      ∃ other ∈ nodes, other.number ≠ node.number ∧ other.RefersTo node.number := by
  rw [List.any_eq_true]
  constructor
  · rintro ⟨edge, hedge, hsource⟩
    obtain ⟨hedge, htarget⟩ := Graph.mem_edgesTo.1 hedge
    obtain ⟨other, hother, reference, hreference, -, rfl⟩ := Graph.mem_edges.1 hedge
    exact ⟨other, hother, bne_iff_ne.1 hsource, reference, hreference, htarget⟩
  · rintro ⟨other, hother, hne, reference, hreference, htarget⟩
    have hknown : reference.target ∈ Graph.numbers nodes := htarget ▸ List.mem_map_of_mem hmem
    have hedge := Graph.mem_edges.2 ⟨other, hother, reference, hreference, hknown, rfl⟩
    exact ⟨_, Graph.mem_edgesTo.2 ⟨hedge, htarget⟩, bne_iff_ne.2 hne⟩

theorem checkReached_eq_nil_iff {nodes : List Node} :
    checkReached (Graph.ofNodes nodes) = [] ↔ ∀ node ∈ nodes, ¬ MayBegin nodes node →
      ∃ other ∈ nodes, other.number ≠ node.number ∧ other.RefersTo node.number := by
  have hnumbers : ∀ p : Int → Prop, (∀ number ∈ (Graph.numbers nodes).eraseDups, p number) ↔
      ∀ node ∈ nodes, p node.number := by
    intro p
    simp only [List.mem_eraseDups, Graph.numbers]
    exact List.forall_mem_map
  rw [checkReached, List.map_eq_nil_iff, List.filter_eq_nil_iff]
  refine (hnumbers _).trans (forall₂_congr fun node hmem => ?_)
  rw [Bool.and_eq_true, Bool.not_eq_true', Bool.not_eq_true', ← Bool.not_eq_true, ← Bool.not_eq_true,
    not_and, not_not, any_edgesTo_iff hmem]
  exact imp_congr (not_congr (isEntry_iff hmem)) Iff.rfl

/-! ### Exits -/

/-- Nothing is erased from a list in which nothing is repeated. -/
theorem eraseDupsBy_eq_self {α : Type} {r : α → α → Bool} {l : List α}
    (h : l.Pairwise fun a b => r b a = false) : l.eraseDupsBy r = l := by
  induction l with
  | nil => rfl
  | cons a rest ih =>
    obtain ⟨hhead, hrest⟩ := List.pairwise_cons.1 h
    have hkeep : rest.filter (fun b => decide (r b a = false)) = rest :=
      List.filter_eq_self.2 fun b hb => decide_eq_true (hhead b hb)
    rw [List.eraseDupsBy_cons, hkeep, ih hrest]

theorem firstDecisions_eq {nodes : List Node} (hd : (Graph.numbers nodes).Nodup) :
    firstDecisions nodes = nodes.filter (·.kind = .decision) := by
  rw [firstDecisions, eraseDupsBy_eq_self]
  exact ((List.pairwise_map.1 hd).filter _).imp fun hne => beq_false_of_ne hne.symm

theorem isEndpoint_iff {policy : Policy} {node : Node} :
    policy.isEndpoint node = true ↔ TaggedAsEnd policy node := by
  rw [Policy.isEndpoint, TaggedAsEnd, List.any_cons, List.any_cons, List.any_nil, Bool.or_false,
    ← List.any_append]
  simp only [List.any_eq_true]

/-- Where numbers are distinct and all targets exist, the edges that leave a node are its
references. -/
theorem outDegree_eq_zero_iff {nodes : List Node} (hd : (Graph.numbers nodes).Nodup)
    (ht : ∀ node ∈ nodes, ∀ reference ∈ node.references, reference.target ∈ Graph.numbers nodes)
    {node : Node} (hmem : node ∈ nodes) :
    (Graph.ofNodes nodes).outDegree node.number = 0 ↔ node.references = [] := by
  rw [Graph.outDegree_eq_zero_iff_forall, List.eq_nil_iff_forall_not_mem]
  constructor
  · intro h reference hreference
    have hknown := ht node hmem reference hreference
    exact h _ (Graph.mem_edges.2 ⟨node, hmem, reference, hreference, hknown, rfl⟩) rfl
  · intro h edge hedge hsource
    obtain ⟨other, hother, reference, hreference, -, rfl⟩ := Graph.mem_edges.1 hedge
    have hsame : other = node := List.inj_on_of_nodup_map hd hother hmem hsource
    exact h reference (hsame ▸ hreference)

theorem checkExits_eq_nil_iff {policy : Policy} {nodes : List Node}
    (hd : (Graph.numbers nodes).Nodup)
    (ht : ∀ node ∈ nodes, ∀ reference ∈ node.references, reference.target ∈ Graph.numbers nodes) :
    checkExits policy (Graph.ofNodes nodes) = [] ↔ ∀ node ∈ nodes, node.kind = .decision →
      node.references ≠ [] ∨ TaggedAsEnd policy node := by
  have hfirst : firstDecisions (Graph.ofNodes nodes).nodes = nodes.filter (·.kind = .decision) :=
    firstDecisions_eq hd
  rw [checkExits, hfirst, List.map_eq_nil_iff, List.filter_filter, List.filter_eq_nil_iff]
  apply forall₂_congr
  intro node hmem
  rw [Bool.and_eq_true, Bool.and_eq_true, Bool.not_eq_true', ← Bool.not_eq_true, decide_eq_true_eq,
    decide_eq_true_eq, outDegree_eq_zero_iff hd ht hmem, isEndpoint_iff]
  tauto

/-! ### Routes for errors -/

theorem checkErrorRoutes_eq_nil_iff {policy : Policy} {nodes : List Node}
    (hc : ∀ node ∈ nodes, node.kind = .action → node.command ≠ none) :
    checkErrorRoutes policy nodes = [] ↔ ∀ node ∈ nodes, node.kind = .action →
      ∃ route ∈ node.routes, Text.sameLetters route.label errorLabel = true := by
  have hnode : ∀ position, ∀ node ∈ nodes,
      errorFindings policy (Graph.numbers nodes) position node = [] ↔
        (node.kind = .action →
          ∃ route ∈ node.routes, Text.sameLetters route.label errorLabel = true) := by
    intro position node hmem
    have hany : node.routes.any Route.isErrorRoute = true ↔
        ∃ route ∈ node.routes, Text.sameLetters route.label errorLabel = true := List.any_eq_true
    rw [← hany, errorFindings]
    by_cases hlacks : LacksErrorRoute node
    · rw [if_pos hlacks]
      exact ⟨fun h => absurd h (List.cons_ne_nil _ _), fun h => absurd (h hlacks.1) hlacks.2.2⟩
    · rw [if_neg hlacks]
      refine ⟨fun _ hkind => ?_, fun _ => rfl⟩
      by_contra hnone
      exact hlacks ⟨hkind, hc node hmem hkind, hnone⟩
  rw [checkErrorRoutes_eq, overNodes_eq_nil_iff]
  constructor
  · intro h node hmem
    obtain ⟨position, hposition⟩ := List.getElem?_of_mem hmem
    exact (hnode position node hmem).1 (h position node hposition)
  · intro h position node hposition
    have hmem := List.mem_of_getElem? hposition
    exact (hnode position node hmem).2 (h node hmem)

/-! ### All checks -/

/-- **The checks find nothing exactly in well-formed dialogs.** -/
theorem issues_eq_nil_iff (policy : Policy) (nodes : List Node) :
    issues policy nodes = [] ↔ WellFormed policy nodes := by
  rw [issues, List.map_eq_nil_iff, findings]
  simp only [List.append_eq_nil_iff]
  constructor
  · rintro ⟨⟨⟨⟨⟨hnumbers, hreferences⟩, hcontent⟩, hreached⟩, hexits⟩, herrors⟩
    have distinct := checkNumbers_eq_nil_iff.1 hnumbers
    have targets := checkReferences_eq_nil_iff.1 hreferences
    obtain ⟨content, commands⟩ := checkContent_eq_nil_iff.1 hcontent
    exact
      { distinct, targets, content, commands
        reached := checkReached_eq_nil_iff.1 hreached
        exits := (checkExits_eq_nil_iff distinct targets).1 hexits
        errorRoutes := (checkErrorRoutes_eq_nil_iff commands).1 herrors }
  · intro h
    exact ⟨⟨⟨⟨⟨checkNumbers_eq_nil_iff.2 h.distinct, checkReferences_eq_nil_iff.2 h.targets⟩,
      checkContent_eq_nil_iff.2 ⟨h.content, h.commands⟩⟩, checkReached_eq_nil_iff.2 h.reached⟩,
      (checkExits_eq_nil_iff h.distinct h.targets).2 h.exits⟩,
      (checkErrorRoutes_eq_nil_iff h.commands).2 h.errorRoutes⟩

end Validation

end DialogTable
