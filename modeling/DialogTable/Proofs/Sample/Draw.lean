import DialogTable.Graph
import DialogTable.Proofs.Sample.Blocks

/-!
# What is drawn

A draw yields a property if its result has the property on every tape. The relations below list what
the draws of a sample come to: `Chain` and `Chains` the nodes of flows, `Spoiled` the nodes that
defects leave behind. The main statement `yields_draw` says that every sample is `Generated`.
-/

namespace DialogTable.Sample

/-! ### Properties of all results -/

namespace Draw

variable {α β : Type} {draw : Draw α} {P : α → Prop} {Q : β → Prop}

/-- On every tape, from every position on, the result has a property. -/
def Yields (draw : Draw α) (P : α → Prop) : Prop :=
  ∀ tape position, P (draw tape position).1

theorem yields_pure {value : α} (h : P value) : Yields (pure value) P :=
  fun _ _ => h

theorem yields_any (draw : Draw α) : draw.Yields fun _ => True :=
  fun _ _ => trivial

theorem Yields.bind {next : α → Draw β} (h : draw.Yields P)
    (hnext : ∀ value, P value → (next value).Yields Q) : Yields (draw >>= next) Q :=
  fun tape position => hnext _ (h tape position) tape (draw tape position).2

theorem yields_among (low : Nat) {size : Nat} (h : 0 < size) :
    (among low size).Yields fun n => low ≤ n ∧ n < low + size := by
  refine (yields_any next).bind fun n _ => yields_pure ?_
  have hlt := Nat.mod_lt n h
  omega

theorem yields_oneOf {texts : List String} (h : texts ≠ []) : (oneOf texts).Yields (· ∈ texts) := by
  refine (yields_among 0 (List.length_pos_iff.2 h)).bind fun n hn => yields_pure ?_
  rw [Nat.zero_add] at hn
  rw [List.getD_eq_getElem?_getD, List.getElem?_eq_getElem hn.2, Option.getD_some]
  exact List.getElem_mem hn.2

end Draw

/-! ### Chains -/

/-- The nodes of a flow from a number on. The numbers ascend one by one, and each node leads to the
next one. -/
inductive Chain (exit : Option Int) : Int → List Node → Prop
  | last (number : Int) : Chain exit number [question number exit]
  | asked {number : Int} {rest : List Node} (h : Chain exit (number + 1) rest) :
    Chain exit number (question number (some (number + 1)) :: rest)
  | stepped {number : Int} {rest : List Node} {command : String}
      (hc : command ∈ customCommands ++ systemCommands) (h : Chain exit (number + 1) rest) :
    Chain exit number (step number command :: rest)

/-- The nodes of flows, as many for each as the shape allows. -/
inductive Chains (shape : Shape) : List Flow → List (List Node) → Prop
  | nil : Chains shape [] []
  | cons {flow : Flow} {rest : List Flow} {nodes : List Node} {later : List (List Node)}
      (hleast : shape.minimum ≤ nodes.length) (hmost : nodes.length ≤ shape.maximum)
      (h : Chain (rest.head?.map Flow.start) flow.start nodes) (hlater : Chains shape rest later) :
    Chains shape (flow :: rest) (nodes :: later)

theorem Chain.ne_nil {exit : Option Int} {number : Int} {nodes : List Node}
    (h : Chain exit number nodes) : nodes ≠ [] := by
  cases h <;> exact List.cons_ne_nil _ _

/-- A chain has every number from its first on. -/
theorem Chain.mem_numbers_iff {exit : Option Int} {number : Int} {nodes : List Node}
    (h : Chain exit number nodes) {n : Int} :
    n ∈ Graph.numbers nodes ↔ number ≤ n ∧ n < number + nodes.length := by
  have hcons : ∀ {number : Int} {node : Node} {rest : List Node}, node.number = number →
      (n ∈ Graph.numbers rest ↔ number + 1 ≤ n ∧ n < number + 1 + rest.length) →
      (n ∈ Graph.numbers (node :: rest) ↔ number ≤ n ∧ n < number + (node :: rest).length) := by
    intro number node rest hnumber hrest
    rw [Graph.numbers, List.map_cons, List.mem_cons, ← Graph.numbers, hrest, hnumber,
      List.length_cons]
    omega
  induction h with
  | last number =>
    have hnumber : (question number exit).number = number := by cases exit <;> rfl
    rw [Graph.numbers, List.map_singleton, List.mem_singleton, List.length_singleton, hnumber]
    omega
  | asked _ ih => exact hcons rfl ih
  | stepped _ _ ih => exact hcons rfl ih

theorem Chains.length_eq {shape : Shape} {flows : List Flow} {parts : List (List Node)}
    (h : Chains shape flows parts) : parts.length = flows.length := by
  induction h with
  | nil => rfl
  | cons _ _ _ _ ih => exact congrArg Nat.succ ih

theorem yields_action (number : Int) :
    (action number).Yields fun node =>
      ∃ command ∈ customCommands ++ systemCommands, node = step number command := by
  refine (Draw.yields_any _).bind fun custom _ => ?_
  have hne : (if custom then customCommands else systemCommands) ≠ [] := by
    cases custom <;> decide
  refine (Draw.yields_oneOf hne).bind fun command hc => Draw.yields_pure ⟨command, ?_, rfl⟩
  rw [List.mem_append]
  cases custom with
  | true => exact .inl hc
  | false => exact .inr hc

theorem yields_chain (exit : Option Int) (size : Nat) (number : Int) :
    (chain exit (size + 1) number).Yields fun nodes =>
      Chain exit number nodes ∧ nodes.length = size + 1 := by
  induction size generalizing number with
  | zero => exact Draw.yields_pure ⟨.last number, rfl⟩
  | succ size ih =>
    have hcons : ∀ node, (node = question number (some (number + 1)) ∨
        ∃ command ∈ customCommands ++ systemCommands, node = step number command) →
        Draw.Yields (do
          let rest ← chain exit (size + 1) (number + 1)
          return node :: rest) fun nodes =>
            Chain exit number nodes ∧ nodes.length = size + 2 := by
      refine fun node hn => (ih (number + 1)).bind fun rest hrest => Draw.yields_pure ?_
      refine ⟨?_, congrArg Nat.succ hrest.2⟩
      rcases hn with rfl | ⟨command, hc, rfl⟩
      · exact .asked hrest.1
      · exact .stepped hc hrest.1
    refine (Draw.yields_any _).bind fun acts _ => ?_
    cases acts with
    | true => exact (yields_action number).bind fun node hnode => hcons node (.inr hnode)
    | false => exact (Draw.yields_pure rfl).bind fun node hnode => hcons node (.inl hnode.symm)

theorem yields_chains {shape : Shape} (h : shape.IsPossible) (flows : List Flow) :
    (chains shape flows).Yields (Chains shape flows) := by
  induction flows with
  | nil => exact Draw.yields_pure .nil
  | cons flow rest ih =>
    refine (Draw.yields_among shape.minimum (Nat.succ_pos _)).bind fun size hsize => ?_
    obtain ⟨hpositive, hle, -⟩ := h
    obtain ⟨less, rfl⟩ := Nat.exists_eq_succ_of_ne_zero (by omega : size ≠ 0)
    refine (yields_chain _ less _).bind fun nodes hnodes => ih.bind fun later hlater =>
      Draw.yields_pure (.cons ?_ ?_ hnodes.1 hlater)
    · rw [hnodes.2]
      exact hsize.1
    · rw [hnodes.2]
      omega

/-- Each part is the chain of the flow at its position. It leads on to the flow behind that one. -/
theorem Chains.part {shape : Shape} {flows : List Flow} {parts : List (List Node)}
    (h : Chains shape flows parts) {index : Nat} {nodes : List Node}
    (hnodes : parts[index]? = some nodes) :
    ∃ flow, flows[index]? = some flow ∧ shape.minimum ≤ nodes.length ∧
      nodes.length ≤ shape.maximum ∧
      Chain (flows[index + 1]?.map Flow.start) flow.start nodes := by
  induction h generalizing index with
  | nil => cases hnodes
  | @cons flow rest _ _ hleast hmost hchain _ ih =>
    cases index with
    | zero =>
      rw [← Option.some.inj hnodes]
      exact ⟨flow, rfl, hleast, hmost, List.head?_eq_getElem? (l := rest) ▸ hchain⟩
    | succ index => exact ih hnodes

/-! ### Defects -/

/-- The defects that may be drawn for a node. -/
def Defect.Suits : Defect → Node → Prop
  | missingNode target, _ => 90000 ≤ target ∧ target < 90999
  | noErrorRoute, node => node.kind = .action
  | noContent, _ => True

/-- What defects make of nodes, one after another. -/
inductive Spoiled : List Node → List (Option Spoiling) → List Node → Prop
  | done (nodes : List Node) : Spoiled nodes [] nodes
  | spoiled {nodes after : List Node} {later : List (Option Spoiling)} {index : Nat} {node : Node}
      {defect : Defect} (hnode : nodes[index]? = some node) (hd : defect.Suits node)
      (h : Spoiled (nodes.set index (defect.apply node)) later after) :
    Spoiled nodes (some { number := node.number, defect } :: later) after

theorem yields_defect (node : Node) :
    (Defect.draw node).Yields fun defect => defect.Suits node := by
  refine (Draw.yields_any _).bind fun kind _ => ?_
  split
  · refine (Draw.yields_among 0 (by decide)).bind fun offset hoffset => Draw.yields_pure ?_
    show (90000 : Int) ≤ 90000 + offset ∧ (90000 + offset : Int) < 90999
    omega
  · split
    · next haction => exact Draw.yields_pure haction.2
    · exact Draw.yields_pure trivial

/-- In a list of three nodes or more there is always one to spoil. -/
theorem yields_spoil (defects : Nat) {nodes : List Node} (h : 3 ≤ nodes.length) :
    (spoil defects nodes).Yields fun result =>
      Spoiled nodes result.2 result.1 ∧ result.2.length = defects := by
  induction defects generalizing nodes with
  | zero => exact Draw.yields_pure ⟨.done nodes, rfl⟩
  | succ defects ih =>
    have hone : (spoilOne nodes).Yields fun result => ∃ index node defect,
        nodes[index]? = some node ∧ defect.Suits node ∧
          result = (nodes.set index (defect.apply node),
            some { number := node.number, defect }) := by
      refine (Draw.yields_among 1 (by omega)).bind fun index hindex => ?_
      have hlt : index < nodes.length := by omega
      rw [List.getElem?_eq_getElem hlt]
      exact (yields_defect _).bind fun defect hdefect =>
        Draw.yields_pure ⟨index, nodes[index], defect, List.getElem?_eq_getElem hlt, hdefect, rfl⟩
    refine hone.bind fun result hresult => ?_
    obtain ⟨index, node, defect, hnode, hdefect, rfl⟩ := hresult
    refine (ih ?_).bind fun later hlater => Draw.yields_pure ?_
    · rw [List.length_set]
      exact h
    · exact ⟨.spoiled hnode hdefect hlater.1, congrArg Nat.succ hlater.2⟩

/-! ### Samples -/

/-- The nodes of a sample before any defect. -/
def sound (plan : FlowPlan) (parts : List (List Node)) : List Node :=
  welcome (plan.flows.head?.map Flow.start) :: (parts.flatten ++ [errorHandler])

/-- What a sample of a shape is. -/
structure Generated (shape : Shape) (sample : Sample) : Prop where
  possible : shape.IsPossible
  hasFlow : sample.plan.flows ≠ []
  allocated : Allocated shape.flows sample.plan
  parts : Chains shape sample.plan.flows sample.parts
  spoiled : Spoiled (sound sample.plan sample.parts) sample.defects sample.nodes
  count : sample.defects.length = shape.defects

theorem three_le_length_sound {shape : Shape} {plan : FlowPlan} {parts : List (List Node)}
    (h : Chains shape plan.flows parts) (hflows : plan.flows ≠ []) :
    3 ≤ (sound plan parts).length := by
  generalize hf : plan.flows = flows at h hflows
  cases h with
  | nil => exact absurd rfl hflows
  | @cons _ _ nodes later _ _ hnodes _ =>
    have hpositive := List.length_pos_iff.2 hnodes.ne_nil
    simp only [sound, List.flatten_cons, List.length_cons, List.length_append, List.length_nil]
    omega

/-- Whatever is drawn, a sample is what a sample of its shape is. -/
theorem yields_draw {shape : Shape} (hs : shape.IsPossible) (hflows : 1 ≤ shape.flows)
    {plan : FlowPlan} (hplan : allocate shape.flows = .ok plan) :
    (draw shape plan).Yields (Generated shape) := by
  have hallocated := allocated_of_allocate hplan
  have hne : plan.flows ≠ [] := by
    refine List.length_pos_iff.1 ?_
    rw [hallocated.length]
    exact hflows
  refine (yields_chains hs plan.flows).bind fun parts hparts => ?_
  refine (yields_spoil shape.defects (three_le_length_sound hparts hne)).bind
    fun result hresult => Draw.yields_pure ?_
  exact ⟨hs, hne, hallocated, hparts, hresult.1, hresult.2⟩

/-- The sample that is drawn from a tape. -/
theorem generated_result {shape : Shape} (hs : shape.IsPossible) (hflows : 1 ≤ shape.flows)
    {plan : FlowPlan} (hplan : allocate shape.flows = .ok plan) (tape : Nat → Nat) :
    Generated shape ((draw shape plan).result tape) :=
  yields_draw hs hflows hplan tape 0

end DialogTable.Sample
