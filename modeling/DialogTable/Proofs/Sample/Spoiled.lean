import DialogTable.Proofs.Sample.Path
import DialogTable.Proofs.Sample.Written

/-!
# Samples with defects

A defect makes a fault that the checks note, and no later defect mends it (`Flawed.apply`). There is
one exception: the node that is called missing may exist. Such a defect is `Harmless`, for a dialog
stays well formed with one more reference to a node that exists. So the checks find nothing exactly
if all defects are harmless (`Spoiled.noIssues_iff`).
-/

namespace DialogTable.Sample

open Validation (TaggedAsEnd MayBegin WellFormed)

/-! ### Faults -/

/-- A fault of a node among nodes with these numbers. -/
inductive Flawed (known : List Int) (node : Node) : Prop
  | stray (target : Int) (h : target ∈ node.nextNodes) (hn : target ∉ known)
  | empty (hkind : node.kind = .decision) (hmessage : node.message = none)
      (hcontent : node.richContent = none)
  | idle (hkind : node.kind = .action) (h : node.command = none)
  | unhandled (hkind : node.kind = .action)
      (h : ∀ route ∈ node.routes, Text.sameLetters route.label errorLabel = false)

/-- No defect mends a fault. -/
theorem Flawed.apply {known : List Int} {node : Node} (h : Flawed known node) (defect : Defect) :
    Flawed known (defect.apply node) := by
  cases h with
  | stray target h hn =>
    refine .stray target ?_ hn
    cases defect with
    | missingNode other => exact List.mem_append_left _ h
    | noErrorRoute => exact h
    | noContent => exact h
  | empty hkind hmessage hcontent =>
    cases defect with
    | missingNode other => exact .empty hkind hmessage hcontent
    | noErrorRoute => exact .empty hkind hmessage hcontent
    | noContent => exact .empty hkind rfl rfl
  | idle hkind h =>
    cases defect with
    | missingNode other => exact .idle hkind h
    | noErrorRoute => exact .idle hkind h
    | noContent => exact .idle hkind (if_pos hkind)
  | unhandled hkind h =>
    refine .unhandled ?_ ?_
    · cases defect <;> exact hkind
    · cases defect with
      | missingNode other => exact h
      | noErrorRoute => exact fun route hroute => h route (List.mem_of_mem_filter hroute)
      | noContent => exact h

/-- Among nodes without issues none has a fault. -/
theorem not_flawed_of_issues {policy : Validation.Policy} {nodes : List Node}
    (h : Validation.issues policy nodes = []) {node : Node} (hmem : node ∈ nodes) :
    ¬ Flawed (Graph.numbers nodes) node := by
  obtain ⟨-, hreferences, hcontent, -, -, herrors⟩ := Validation.issues_eq_nil_iff_checks.1 h
  obtain ⟨content, commands⟩ := Validation.checkContent_eq_nil_iff.1 hcontent
  intro hflawed
  cases hflawed with
  | stray target htarget hn =>
    refine hn (Validation.checkReferences_eq_nil_iff.1 hreferences node hmem
      (Validation.nextReference target) ?_)
    exact List.mem_append_left _ (List.mem_append_left _ (List.mem_map_of_mem htarget))
  | empty hkind hmessage hrich =>
    exact (content node hmem hkind).elim (absurd hmessage) (absurd hrich)
  | idle hkind hcommand => exact commands node hmem hkind hcommand
  | unhandled hkind hroutes =>
    obtain ⟨route, hroute, herror⟩ :=
      (Validation.checkErrorRoutes_eq_nil_iff commands).1 herrors node hmem hkind
    exact Bool.false_ne_true ((hroutes route hroute).symm.trans herror)

theorem nodup_of_issues {policy : Validation.Policy} {nodes : List Node}
    (h : Validation.issues policy nodes = []) : (Graph.numbers nodes).Nodup :=
  Validation.checkNumbers_eq_nil_iff.1 (Validation.issues_eq_nil_iff_checks.1 h).1

theorem issues_of_wellFormed {policy : Validation.Policy} {nodes : List Node}
    (h : WellFormed policy nodes) : Validation.issues policy nodes = [] :=
  Validation.issues_eq_nil_iff_checks.2
    ⟨Validation.checkNumbers_eq_nil_iff.2 h.distinct,
      Validation.checkReferences_eq_nil_iff.2 h.targets,
      Validation.checkContent_eq_nil_iff.2 ⟨h.content, h.commands⟩,
      Validation.checkReached_eq_nil_iff.2 h.reached,
      (Validation.checkExits_eq_nil_iff h.distinct h.targets).2 h.exits,
      (Validation.checkErrorRoutes_eq_nil_iff h.commands).2 h.errorRoutes⟩

/-! ### Harmless defects -/

/-- The node that is called missing exists. -/
def Spoiling.Harmless (known : List Int) (spoiling : Spoiling) : Prop :=
  ∃ target ∈ known, spoiling.defect = .missingNode target

/-- Every other defect makes a fault. -/
theorem flawed_of_not_harmless {known : List Int} {node : Node} (ht : Tame node) {defect : Defect}
    (hd : defect.Suits node) {number : Int}
    (h : ¬ Spoiling.Harmless known { number, defect }) : Flawed known (defect.apply node) := by
  cases defect with
  | missingNode target =>
    exact .stray target (List.mem_append_right _ List.mem_cons_self)
      fun hknown => h ⟨target, hknown, rfl⟩
  | noErrorRoute =>
    refine .unhandled hd fun route hroute => ?_
    obtain ⟨hold, hlabel⟩ := List.mem_filter.1 hroute
    have hother : ∀ label ∈ labels, label ≠ "error" →
        Text.sameLetters label errorLabel = false := by decide +kernel
    exact hother route.label (ht.routes route hold).1 (of_decide_eq_true hlabel)
  | noContent =>
    cases hkind : node.kind with
    | decision => exact .empty hkind rfl rfl
    | action => exact .idle hkind (if_pos hkind)

/-- A node that leads to more of the known nodes than before. -/
inductive Grown (known : List Int) (node : Node) : Node → Prop
  | leads (more : List Int) (h : ∀ target ∈ more, target ∈ known) :
    Grown known node { node with nextNodes := node.nextNodes ++ more }

theorem Grown.refl (known : List Int) (node : Node) : Grown known node node := by
  have hgrown : Grown known node { node with nextNodes := node.nextNodes ++ [] } := .leads [] nofun
  rw [List.append_nil] at hgrown
  exact hgrown

theorem Grown.mem_references {known : List Int} {node after : Node} (h : Grown known node after)
    {reference : Reference} (hr : reference ∈ node.references) : reference ∈ after.references := by
  cases h with
  | leads more _ =>
    simp only [Node.references, List.map_append, List.mem_append] at hr ⊢
    tauto

theorem Grown.references {known : List Int} {node after : Node} (h : Grown known node after)
    {reference : Reference} (hr : reference ∈ after.references) :
    reference ∈ node.references ∨ reference.target ∈ known := by
  cases h with
  | leads more hmore =>
    have hnew : ∀ reference ∈ more.map Validation.nextReference, reference.target ∈ known :=
      List.forall_mem_map.2 hmore
    have hsplit : reference ∈ node.references ∨
        reference ∈ more.map Validation.nextReference := by
      simp only [Node.references, List.map_append, List.mem_append] at hr ⊢
      tauto
    exact hsplit.imp_right (hnew reference)

theorem grown_set {known : List Int} {nodes : List Node} {index : Nat} {node after : Node}
    (hnode : nodes[index]? = some node) (h : Grown known node after) :
    List.Forall₂ (Grown known) nodes (nodes.set index after) := by
  induction nodes generalizing index with
  | nil => cases hnode
  | cons first rest ih =>
    cases index with
    | zero =>
      rw [← Option.some.inj hnode] at h
      exact .cons h (List.forall₂_same.2 fun other _ => .refl known other)
    | succ index => exact .cons (.refl known first) (ih hnode)

section GrownNodes

variable {known : List Int} {nodes after : List Node}

theorem numbers_of_grown (h : List.Forall₂ (Grown known) nodes after) :
    Graph.numbers after = Graph.numbers nodes := by
  induction h with
  | nil => rfl
  | cons hhead _ ih =>
    cases hhead
    exact congrArg (List.cons _) ih

theorem exists_before_of_mem (h : List.Forall₂ (Grown known) nodes after) :
    ∀ node ∈ after, ∃ before ∈ nodes, Grown known before node := by
  induction h with
  | nil => exact nofun
  | cons hhead _ ih =>
    refine List.forall_mem_cons.2 ⟨⟨_, List.mem_cons_self, hhead⟩, fun node hmem => ?_⟩
    obtain ⟨before, hbefore, hgrown⟩ := ih node hmem
    exact ⟨before, List.mem_cons_of_mem _ hbefore, hgrown⟩

theorem exists_after_of_mem (h : List.Forall₂ (Grown known) nodes after) :
    ∀ before ∈ nodes, ∃ node ∈ after, Grown known before node := by
  induction h with
  | nil => exact nofun
  | cons hhead _ ih =>
    refine List.forall_mem_cons.2 ⟨⟨_, List.mem_cons_self, hhead⟩, fun before hmem => ?_⟩
    obtain ⟨node, hnode, hgrown⟩ := ih before hmem
    exact ⟨node, List.mem_cons_of_mem _ hnode, hgrown⟩

theorem mayBegin_of_grown (h : List.Forall₂ (Grown known) nodes after) {before node : Node}
    (hgrown : Grown known before node) (hbegin : MayBegin nodes before) : MayBegin after node := by
  cases hgrown
  refine hbegin.imp_right fun hleast other hother hsystem => ?_
  obtain ⟨old, hold, hgrown⟩ := exists_before_of_mem h other hother
  cases hgrown
  exact hleast old hold hsystem

/-- A dialog stays well formed if its nodes lead to more of one another. -/
theorem wellFormed_of_grown {policy : Validation.Policy} (hw : WellFormed policy nodes)
    (h : List.Forall₂ (Grown (Graph.numbers nodes)) nodes after) : WellFormed policy after := by
  have hnumbers := numbers_of_grown h
  have hbefore := exists_before_of_mem h
  refine ⟨hnumbers ▸ hw.distinct, fun node hmem reference hreference => ?_, fun node hmem => ?_,
    fun node hmem => ?_, fun node hmem hbegin => ?_, fun node hmem => ?_, fun node hmem => ?_⟩
  all_goals obtain ⟨before, hold, hgrown⟩ := hbefore node hmem
  · rw [hnumbers]
    exact (hgrown.references hreference).elim (hw.targets before hold reference) id
  · cases hgrown
    exact hw.content before hold
  · cases hgrown
    exact hw.commands before hold
  · obtain ⟨other, hother, hne, reference, hreference, htarget⟩ :=
      hw.reached before hold fun hbefore => hbegin (mayBegin_of_grown h hgrown hbefore)
    obtain ⟨later, hlater, hlaterGrown⟩ := exists_after_of_mem h other hother
    have hrefers := hlaterGrown.mem_references hreference
    cases hgrown
    cases hlaterGrown
    exact ⟨_, hlater, hne, reference, hrefers, htarget⟩
  · intro hkind
    cases hgrown with
    | leads more hmore =>
      refine (hw.exits before hold hkind).imp_left fun hne => ?_
      obtain ⟨reference, hreference⟩ := List.exists_mem_of_ne_nil _ hne
      exact List.ne_nil_of_mem ((Grown.leads more hmore).mem_references hreference)
  · cases hgrown
    exact hw.errorRoutes before hold

end GrownNodes

/-! ### All defects -/

namespace Spoiled

variable {nodes after : List Node} {spoilings : List (Option Spoiling)}

/-- A fault stays, and every defect that is not harmless makes one. -/
theorem exists_flawed {known : List Int} (h : Spoiled nodes spoilings after)
    (ht : ∀ node ∈ nodes, Tame node) (hflawed : (∃ node ∈ nodes, Flawed known node) ∨
      ∃ spoiling, some spoiling ∈ spoilings ∧ ¬ spoiling.Harmless known) :
    ∃ node ∈ after, Flawed known node := by
  induction h with
  | done nodes => exact hflawed.resolve_right nofun
  | @spoiled nodes after later index node defect hnode hd _ ih =>
    have hmem : node ∈ nodes := List.mem_of_getElem? hnode
    have hlt : index < nodes.length := (List.getElem?_eq_some_iff.1 hnode).1
    have hspoiled : defect.apply node ∈ nodes.set index (defect.apply node) := List.mem_set hlt _
    have htame : ∀ other ∈ nodes.set index (defect.apply node), Tame other := fun other hother =>
      (List.mem_or_eq_of_mem_set hother).elim (ht other) fun heq => heq ▸ (ht node hmem).apply hd
    refine ih htame ?_
    rcases hflawed with ⟨other, hother, hflawed⟩ | ⟨spoiling, hlisted, hharm⟩
    · left
      obtain ⟨position, hposition⟩ := List.getElem?_of_mem hother
      by_cases heq : index = position
      · rw [← heq, hnode, Option.some.injEq] at hposition
        exact ⟨_, hspoiled, (hposition ▸ hflawed).apply defect⟩
      · rw [← List.getElem?_set_ne heq] at hposition
        exact ⟨other, List.mem_of_getElem? hposition, hflawed⟩
    · rcases List.mem_cons.1 hlisted with heq | hlater
      · rw [Option.some.inj heq] at hharm
        exact .inl ⟨_, hspoiled, flawed_of_not_harmless (ht node hmem) hd hharm⟩
      · exact .inr ⟨spoiling, hlater, hharm⟩

theorem wellFormed {policy : Validation.Policy} (h : Spoiled nodes spoilings after)
    (hharmless : ∀ spoiling, some spoiling ∈ spoilings → spoiling.Harmless (Graph.numbers nodes))
    (hw : WellFormed policy nodes) : WellFormed policy after := by
  induction h with
  | done nodes => exact hw
  | @spoiled nodes after later index node defect hnode _ _ ih =>
    obtain ⟨target, htarget, hdefect⟩ := hharmless _ List.mem_cons_self
    have hdefect : defect = .missingNode target := hdefect
    subst hdefect
    have hgrown : List.Forall₂ (Grown (Graph.numbers nodes)) nodes
        (nodes.set index ((Defect.missingNode target).apply node)) :=
      grown_set hnode (.leads [target] (List.forall_mem_singleton.2 htarget))
    refine ih (fun spoiling hmem => ?_) (wellFormed_of_grown hw hgrown)
    rw [numbers_of_grown hgrown]
    exact hharmless spoiling (List.mem_cons_of_mem _ hmem)

theorem numbers_eq (h : Spoiled nodes spoilings after) :
    Graph.numbers after = Graph.numbers nodes := by
  induction h with
  | done nodes => rfl
  | @spoiled nodes after later index node defect hnode _ _ ih =>
    have hnumber : (defect.apply node).number = node.number := by
      cases defect <;> rfl
    obtain ⟨hlt, rfl⟩ := List.getElem?_eq_some_iff.1 hnode
    rw [ih, Graph.numbers, List.map_set, hnumber, ← List.map_set, List.set_getElem_self,
      Graph.numbers]

/-- Among harmless defects the first one calls a node missing that exists. -/
theorem eq_nil_or_exists_target {known : List Int} (h : Spoiled nodes spoilings after)
    (hharmless : ∀ spoiling, some spoiling ∈ spoilings → spoiling.Harmless known) :
    spoilings = [] ∨ ∃ target ∈ known, 90000 ≤ target ∧ target < 90999 := by
  cases h with
  | done => exact .inl rfl
  | @spoiled _ _ _ _ node defect _ hd _ =>
    obtain ⟨target, htarget, hdefect⟩ := hharmless _ List.mem_cons_self
    have hdefect : defect = .missingNode target := hdefect
    subst hdefect
    exact .inr ⟨target, htarget, hd⟩

theorem eq_of_nil (h : Spoiled nodes [] after) : after = nodes := by
  cases h
  rfl

/-- The checks find nothing exactly if the dialog was well formed and all defects are harmless. -/
theorem noIssues_iff {policy : Validation.Policy} (h : Spoiled nodes spoilings after)
    (ht : ∀ node ∈ nodes, Tame node) (hw : WellFormed policy nodes) :
    Validation.issues policy after = [] ↔
      ∀ spoiling, some spoiling ∈ spoilings → spoiling.Harmless (Graph.numbers nodes) := by
  constructor
  · intro hissues spoiling hmem
    by_contra hharm
    obtain ⟨node, hnode, hflawed⟩ := h.exists_flawed ht (.inr ⟨spoiling, hmem, hharm⟩)
    exact not_flawed_of_issues hissues hnode (h.numbers_eq ▸ hflawed)
  · exact fun hharmless => issues_of_wellFormed (h.wellFormed hharmless hw)

end Spoiled

end DialogTable.Sample
