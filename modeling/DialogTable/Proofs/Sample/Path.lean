import DialogTable.Proofs.Sample.Draw
import DialogTable.Proofs.Validation.WellFormed

/-!
# Paths of a sample

The nodes of a sample before any defect are a path from the welcome through all flows, with the
error handler beside it: each node leads to the next one, and nowhere else but to the error handler.
Such a path is a well-formed dialog as long as the runtime owns none of its nodes
(`Path.wellFormed`).
-/

namespace DialogTable.Sample

open Validation (MayBegin TaggedAsEnd WellFormed)

/-! ### Nodes of a path -/

/-- A node that leads to the next one, or is an end, and has what the checks ask of it. -/
structure Leads (next : Option Int) (node : Node) : Prop where
  refers : ∀ number ∈ next, node.RefersTo number
  targets : ∀ reference ∈ node.references, reference.target ∈ next ∨ reference.target = errorNode
  content : node.kind = .decision → node.message ≠ none ∨ node.richContent ≠ none
  command : node.kind = .action → node.command ≠ none
  exits : node.kind = .decision → node.references ≠ [] ∨ TaggedAsEnd {} node
  errorRoute : node.kind = .action →
    ∃ route ∈ node.routes, Text.sameLetters route.label errorLabel = true

/-- A node with a message that leads to the next one and to no other. -/
theorem Leads.of_next {next : Int} {node : Node} (hkind : node.kind = .decision)
    (hmessage : node.message ≠ none)
    (hreferences : node.references = [{ target := next, origin := .nextNode, label := none }]) :
    Leads (some next) node where
  refers := by
    rintro _ ⟨⟩
    exact ⟨_, hreferences ▸ List.mem_cons_self, rfl⟩
  targets := by
    rw [hreferences]
    exact List.forall_mem_singleton.2 (.inl rfl)
  content _ := .inl hmessage
  command haction := by cases hkind.symm.trans haction
  exits _ := .inl (hreferences ▸ List.cons_ne_nil _ _)
  errorRoute haction := by cases hkind.symm.trans haction

theorem leads_question (number : Int) (next : Option Int) : Leads next (question number next) := by
  cases next with
  | none =>
    refine ⟨nofun, nofun, fun _ => .inl (Option.some_ne_none _), nofun, fun _ => .inr ?_, nofun⟩
    have hcell : (question number none).cell .nodeTags = "end" := rfl
    have htags : (question number none).tokens .nodeTags = ["end"] := by
      rw [Node.tokens, hcell]
      decide +kernel
    exact ⟨"end", by rw [htags]; exact List.mem_append_left _ List.mem_cons_self, "end",
      by decide, by decide +kernel⟩
  | some next => exact .of_next rfl (Option.some_ne_none _) rfl

theorem leads_step (number : Int) (command : String) :
    Leads (some (number + 1)) (step number command) := by
  have hreferences : (step number command).references =
      [{ target := number + 1, origin := .route, label := some "success" },
        { target := errorNode, origin := .route, label := some "error" }] := rfl
  refine ⟨?_, ?_, nofun, fun _ => Option.some_ne_none _, nofun, fun _ => ?_⟩
  · rintro _ ⟨⟩
    exact ⟨_, hreferences ▸ List.mem_cons_self, rfl⟩
  · rw [hreferences]
    exact List.forall_mem_cons.2 ⟨.inl rfl, List.forall_mem_singleton.2 (.inr rfl)⟩
  · exact ⟨_, List.mem_cons_of_mem _ List.mem_cons_self, by decide +kernel⟩

theorem leads_welcome (first : Int) : Leads (some first) (welcome (some first)) :=
  .of_next rfl (Option.some_ne_none _) rfl

/-! ### Paths -/

/-- Nodes from a number on, each of which leads to the next one. The numbers ascend. -/
inductive Path : Int → List Node → Prop
  | last {number : Int} {node : Node} (hnumber : node.number = number) (h : Leads none node) :
    Path number [node]
  | cons {number next : Int} {node : Node} {rest : List Node} (hnumber : node.number = number)
      (h : Leads (some next) node) (hlt : number < next) (hrest : Path next rest) :
    Path number (node :: rest)

theorem Chain.path {number : Int} {nodes : List Node} (h : Chain none number nodes) :
    Path number nodes := by
  induction h with
  | last number => exact .last rfl (leads_question number none)
  | asked _ ih => exact .cons rfl (leads_question _ _) (by omega) ih
  | stepped _ _ ih => exact .cons rfl (leads_step _ _) (by omega) ih

/-- A chain leads on to a path behind it. -/
theorem Chain.path_append {number next : Int} {nodes rest : List Node}
    (h : Chain (some next) number nodes) (hfar : number + nodes.length ≤ next)
    (hrest : Path next rest) : Path number (nodes ++ rest) := by
  induction h with
  | last number =>
    refine .cons rfl (leads_question number (some next)) ?_ hrest
    simp only [List.length_singleton] at hfar
    omega
  | asked _ ih =>
    rw [List.length_cons] at hfar
    exact .cons rfl (leads_question _ _) (by omega) (ih (by omega))
  | stepped _ _ ih =>
    rw [List.length_cons] at hfar
    exact .cons rfl (leads_step _ _) (by omega) (ih (by omega))

/-- The nodes of flows in blocks are one path. -/
theorem Chains.path {shape : Shape} (hs : shape.IsPossible) {flows : List Flow}
    {parts : List (List Node)} (h : Chains shape flows parts) {start : Int}
    (hblocks : InBlocks start flows) (hne : flows ≠ []) : Path start parts.flatten := by
  induction h generalizing start with
  | nil => exact absurd rfl hne
  | @cons flow rest nodes later _ hmost hnodes hlater ih =>
    obtain ⟨rfl, hrest⟩ := hblocks
    rw [List.flatten_cons]
    cases rest with
    | nil =>
      cases hlater
      rw [List.flatten_nil, List.append_nil]
      exact hnodes.path
    | cons next rest =>
      have hnext : next.start = flow.start + FlowPlan.blockSize := hrest.1
      have hfar : flow.start + nodes.length ≤ next.start := by
        have hsize := hs.2.2
        omega
      exact hnodes.path_append hfar (hnext ▸ ih hrest (List.cons_ne_nil _ _))

namespace Path

variable {number : Int} {nodes : List Node}

theorem le_number (h : Path number nodes) : ∀ node ∈ nodes, number ≤ node.number := by
  induction h with
  | last hnumber _ => exact List.forall_mem_singleton.2 (Int.le_of_eq hnumber.symm)
  | cons hnumber _ hlt _ ih =>
    exact List.forall_mem_cons.2 ⟨Int.le_of_eq hnumber.symm, fun node hmem => by
      have hle := ih node hmem
      omega⟩

theorem first_mem (h : Path number nodes) : number ∈ Graph.numbers nodes := by
  cases h with
  | last hnumber _ => exact hnumber ▸ List.mem_cons_self
  | cons hnumber _ _ _ => exact hnumber ▸ List.mem_cons_self

theorem ascending (h : Path number nodes) :
    nodes.Pairwise fun a b => a.number < b.number := by
  induction h with
  | last _ _ => exact List.pairwise_singleton ..
  | cons hnumber _ hlt hrest ih =>
    refine List.pairwise_cons.2 ⟨fun later hlater => ?_, ih⟩
    have hle := hrest.le_number later hlater
    omega

theorem leads (h : Path number nodes) : ∀ node ∈ nodes, ∃ next, Leads next node := by
  induction h with
  | last _ h => exact List.forall_mem_singleton.2 ⟨_, h⟩
  | cons _ h _ _ ih => exact List.forall_mem_cons.2 ⟨⟨_, h⟩, ih⟩

/-- Nothing leads out of a path but to the error handler. -/
theorem targets (h : Path number nodes) : ∀ node ∈ nodes, ∀ reference ∈ node.references,
    reference.target ∈ Graph.numbers nodes ∨ reference.target = errorNode := by
  induction h with
  | last _ h =>
    exact List.forall_mem_singleton.2 fun reference hreference =>
      (h.targets reference hreference).imp_left nofun
  | @cons _ next node rest _ h _ hrest ih =>
    refine List.forall_mem_cons.2 ⟨fun reference hreference => ?_,
      fun other hother reference hreference => ?_⟩
    · refine (h.targets reference hreference).imp_left fun hnext => ?_
      rw [← Option.mem_some_iff.1 hnext]
      exact List.mem_cons_of_mem _ hrest.first_mem
    · exact (ih other hother reference hreference).imp_left (List.mem_cons_of_mem _)

/-- Behind the first node each one is the next of another. -/
theorem reached (h : Path number nodes) : ∀ node ∈ nodes, node.number = number ∨
    ∃ other ∈ nodes, other.number ≠ node.number ∧ other.RefersTo node.number := by
  induction h with
  | last hnumber _ => exact List.forall_mem_singleton.2 (.inl hnumber)
  | @cons number next first rest hnumber h hlt hrest ih =>
    refine List.forall_mem_cons.2 ⟨.inl hnumber, fun node hmem => .inr ?_⟩
    rcases ih node hmem with heq | ⟨other, hother, hne, hrefers⟩
    · refine ⟨first, List.mem_cons_self, by omega, ?_⟩
      exact h.refers node.number (heq ▸ rfl)
    · exact ⟨other, List.mem_cons_of_mem _ hother, hne, hrefers⟩

/-- A path from the welcome on is a well-formed dialog together with the error handler, as long as
the runtime owns none of its nodes. -/
theorem wellFormed (h : Path 1 nodes) (hs : ∀ node ∈ nodes, ¬ node.IsSystem) :
    WellFormed {} (nodes ++ [errorHandler]) := by
  have hnumbers : Graph.numbers (nodes ++ [errorHandler]) = Graph.numbers nodes ++ [errorNode] :=
    List.map_append
  have hfirst : (1 : Int) ∈ Graph.numbers (nodes ++ [errorHandler]) := by
    rw [hnumbers]
    exact List.mem_append_left _ h.first_mem
  have herror : errorNode ∈ Graph.numbers (nodes ++ [errorHandler]) := by
    rw [hnumbers]
    exact List.mem_append_right _ List.mem_cons_self
  have hsplit : ∀ {p : Node → Prop}, (∀ node ∈ nodes, p node) → p errorHandler →
      ∀ node ∈ nodes ++ [errorHandler], p node := fun hnodes hlast =>
    List.forall_mem_append.2 ⟨hnodes, List.forall_mem_singleton.2 hlast⟩
  refine ⟨?_, hsplit ?_ ?_, hsplit ?_ nofun, hsplit ?_ fun _ => Option.some_ne_none _,
    hsplit ?_ ?_, hsplit ?_ nofun, hsplit ?_ fun _ => ?_⟩
  · rw [hnumbers]
    refine List.nodup_append.2 ⟨?_, List.pairwise_singleton .., ?_⟩
    · exact List.pairwise_map.2 (h.ascending.imp Int.ne_of_lt)
    · rintro number hnumber _ hlast rfl
      obtain ⟨node, hmem, rfl⟩ := List.mem_map.1 hnumber
      exact hs node hmem (.inr (Int.le_of_eq (List.mem_singleton.1 hlast).symm))
  · intro node hmem reference hreference
    rcases h.targets node hmem reference hreference with hknown | herror'
    · rw [hnumbers]
      exact List.mem_append_left _ hknown
    · exact herror' ▸ herror
  · have hreferences : errorHandler.references =
        [{ target := 1, origin := .route, label := some "error" }] := rfl
    rw [hreferences]
    exact List.forall_mem_singleton.2 hfirst
  · exact fun node hmem => (h.leads node hmem).elim fun _ hleads => hleads.content
  · exact fun node hmem => (h.leads node hmem).elim fun _ hleads => hleads.command
  · intro node hmem hbegin
    rcases h.reached node hmem with heq | ⟨other, hother, hne, hrefers⟩
    · refine absurd (.inr ?_) hbegin
      refine hsplit (fun other hother _ => ?_) fun hsystem => absurd (.inr (by decide)) hsystem
      rw [heq]
      exact h.le_number other hother
    · exact ⟨other, List.mem_append_left _ hother, hne, hrefers⟩
  · exact fun hbegin => absurd (.inl (.inr (by decide))) hbegin
  · exact fun node hmem => (h.leads node hmem).elim fun _ hleads => hleads.exits
  · exact fun node hmem => (h.leads node hmem).elim fun _ hleads => hleads.errorRoute
  · exact ⟨_, List.mem_cons_self, by decide +kernel⟩

end Path

/-! ### Samples -/

/-- The runtime owns no node of a flow. -/
def Fits (sample : Sample) : Prop :=
  ∀ part ∈ sample.parts, ∀ node ∈ part, ¬ node.IsSystem

/-- A sample without defects is a well-formed dialog if it fits. -/
theorem Generated.wellFormed_sound {shape : Shape} {sample : Sample} (h : Generated shape sample)
    (hfits : sample.Fits) : WellFormed {} (sound sample.plan sample.parts) := by
  have hpath :
      Path 1 (welcome (sample.plan.flows.head?.map Flow.start) :: sample.parts.flatten) := by
    have hflows := h.parts.path h.possible h.allocated.inBlocks h.hasFlow
    obtain ⟨first, rest, hfirst⟩ := List.exists_cons_of_ne_nil h.hasFlow
    have hstart : first.start = FlowPlan.blockSize := by
      have hblocks := h.allocated.inBlocks
      rw [hfirst] at hblocks
      exact hblocks.1
    rw [hfirst]
    exact .cons rfl (leads_welcome first.start) (hstart ▸ by decide) (hstart ▸ hflows)
  refine hpath.wellFormed (List.forall_mem_cons.2 ⟨?_, fun node hmem => ?_⟩)
  · exact (by decide : ¬ IsSystemNumber 1)
  · obtain ⟨part, hpart, hnode⟩ := List.mem_flatten.1 hmem
    exact hfits part hpart node hnode

end DialogTable.Sample
