import DialogTable.Proofs.Sample.Draw
import DialogTable.Proofs.Table.RoundTrip
import DialogTable.Proofs.Validation.Agreement

/-!
# Samples that are written

The texts of a sample have neither quotes nor line breaks in them, and its messages have commas only
where a cell is kept whole by two quotes around it. Such nodes are `Tame`: they are read again with
all their data (`Tame.writable`), and the validator finds in the written table what the checks find
among the nodes themselves (`valid_toText_iff`). No defect changes that (`Tame.apply`).
-/

namespace DialogTable.Sample

/-! ### Texts -/

/-- A character other than the quote and the two that end lines. -/
def IsSafe (c : Char) : Prop :=
  c ≠ '"' ∧ c ≠ '\n' ∧ c ≠ '\r'

instance (c : Char) : Decidable (IsSafe c) :=
  inferInstanceAs (Decidable (_ ∧ _))

theorem isSafe_of_isMark {c : Char} (h : Node.IsMark c) : IsSafe c := by
  refine ⟨?_, ?_, ?_⟩ <;> rintro rfl <;> exact absurd h (by decide)

/-- A text with neither quotes nor line breaks. -/
def Unquoted (text : String) : Prop :=
  ∀ c ∈ text.toList, IsSafe c

instance (text : String) : Decidable (Unquoted text) :=
  List.decidableBAll IsSafe text.toList

theorem Unquoted.append {a b : String} (ha : Unquoted a) (hb : Unquoted b) : Unquoted (a ++ b) := by
  rw [Unquoted, String.toList_append]
  exact List.forall_mem_append.2 ⟨ha, hb⟩

theorem unquoted_toString (number : Int) : Unquoted (toString number) :=
  fun _ hc => isSafe_of_isMark (.inl (Text.isNumeral_of_mem_toString hc))

/-! ### Tame nodes -/

/-- The labels of the routes of a sample. -/
def labels : List String :=
  ["success", errorLabel]

/-- A new node whose texts read back. -/
structure Tame (node : Node) : Prop where
  line : node.line = none
  number : Text.InRange64 node.number
  name : Unquoted node.name
  message : ∀ text ∈ node.message, Unquoted text ∧ Text.isBlankText text = false
  richContentType : node.richContentType = none
  richContent : node.richContent = none
  command : ∀ text ∈ node.command,
    Unquoted text ∧ Text.isBlankText text = false ∧ Text.trimmed text = text
  nextNodes : ∀ target ∈ node.nextNodes, Text.InRange64 target
  routes : ∀ route ∈ node.routes, route.label ∈ labels ∧ Text.InRange64 route.target
  cells : ∀ text ∈ node.cells, Unquoted text

namespace Tame

variable {node : Node}

theorem regular (h : Tame node) : node.Regular where
  number_inRange := h.number
  message_notBlank := fun text htext => (h.message text htext).2
  richContentType_notBlank := h.richContentType ▸ nofun
  richContent_notBlank := h.richContent ▸ nofun
  command_notBlank := fun text htext => (h.command text htext).2.1
  command_trimmed := fun text htext => (h.command text htext).2.2
  nextNodes_inRange := h.nextNodes
  routes_regular := fun route hroute => by
    have hlabels : ∀ label ∈ labels, Text.trimmed label = label ∧ listSeparator ∉ label.toList := by
      decide +kernel
    obtain ⟨hlabel, htarget⟩ := h.routes route hroute
    exact ⟨(hlabels _ hlabel).1, (hlabels _ hlabel).2, htarget⟩

theorem unquoted_cell (h : Tame node) (column : Column) : Unquoted (node.cell column) := by
  rw [Node.cell, List.getD_eq_getElem?_getD]
  cases hcell : node.cells[column.index]? with
  | none => exact List.forall_mem_nil _
  | some text => exact h.cells text (List.mem_of_getElem? hcell)

theorem unquoted_columnText (h : Tame node) (column : Column) :
    Unquoted (node.columnText column) := by
  have hempty : Unquoted "" := by decide
  by_cases hty : column ∈ Column.typed
  · simp only [Column.typed, List.mem_cons, List.not_mem_nil, or_false] at hty
    rcases hty with rfl | rfl | rfl | rfl | rfl | rfl | rfl | rfl | rfl
    · exact unquoted_toString node.number
    · exact fun _ hc => isSafe_of_isMark (Node.isMark_of_mem_letter hc)
    · exact h.name
    · exact fun _ hc => isSafe_of_isMark (Node.isMark_of_mem_nextNodes_text hc)
    · rw [Node.columnText]
      cases hmessage : node.message with
      | none => exact hempty
      | some text => exact (h.message text hmessage).1
    · rw [Node.columnText, h.richContentType]
      exact hempty
    · rw [Node.columnText, h.richContent]
      exact hempty
    · rw [Node.columnText]
      cases hcommand : node.command with
      | none => exact hempty
      | some text => exact (h.command text hcommand).1
    · intro c hc
      have hlabels : ∀ label ∈ labels, Unquoted label := by decide +kernel
      rcases Node.mem_whatNext_text hc with hmark | ⟨route, hroute, hlabel⟩
      · exact isSafe_of_isMark hmark
      · exact hlabels _ (h.routes route hroute).1 c hlabel
  · rw [Node.columnText_of_not_typed node hty]
    exact h.unquoted_cell column

theorem quote_not_mem (h : Tame node) (column : Column) :
    '"' ∉ (node.columnText column).toList :=
  fun hquote => (h.unquoted_columnText column _ hquote).1 rfl

/-- A tame node is read again with all its data. Without any quote before them, all commas of a
column can be guarded by the two quotes around it. -/
theorem writable (h : Tame node) : node.Writable where
  line := h.line
  regular := h.regular
  oneLine := fun column c hc => (h.unquoted_columnText column c hc).2
  pairedQuotes := fun column => Cell.oddQuotes_of_not_mem (h.quote_not_mem column)
  guardable := fun column => .inl fun _ _ heq =>
    Cell.oddQuotes_of_not_mem fun hquote =>
      h.quote_not_mem column (heq ▸ List.mem_append_left _ hquote)

/-- A defect leaves a node tame. -/
theorem apply (h : Tame node) {defect : Defect} (hd : defect.Suits node) :
    Tame (defect.apply node) := by
  cases defect with
  | missingNode target =>
    refine { h with nextNodes := List.forall_mem_append.2 ⟨h.nextNodes, ?_⟩ }
    obtain ⟨hlow, hhigh⟩ := hd
    refine List.forall_mem_singleton.2 ⟨?_, ?_⟩ <;> omega
  | noErrorRoute =>
    exact { h with routes := fun route hroute => h.routes route (List.mem_of_mem_filter hroute) }
  | noContent =>
    refine { h with message := nofun, richContent := rfl, command := fun text htext => ?_ }
    refine h.command text ?_
    rw [Defect.apply] at htext
    split at htext
    · cases htext
    · exact htext

end Tame

/-! ### The nodes of a sample -/

/-- A command that reads back. -/
theorem readable_of_mem_commands :
    ∀ text ∈ "HandleBotError" :: (customCommands ++ systemCommands),
      Unquoted text ∧ Text.isBlankText text = false ∧ Text.trimmed text = text := by
  decide +kernel

theorem unquoted_of_mem_newCells :
    ∀ text ∈ List.replicate Column.all.length "", Unquoted text := by
  decide

theorem tame_question {number : Int} {next : Option Int} (hnumber : Text.InRange64 number)
    (hnext : ∀ target ∈ next, Text.InRange64 target) : Tame (question number next) := by
  have hname : Unquoted s!"Ask {number}" :=
    (by decide : Unquoted "Ask ").append (unquoted_toString number)
  have hmessage : Unquoted s!"Question {number}, please answer" ∧
      Text.isBlankText s!"Question {number}, please answer" = false := by
    constructor
    · exact ((by decide : Unquoted "Question ").append (unquoted_toString number)).append
        (by decide : Unquoted ", please answer")
    · refine List.all_eq_false.2 ⟨'Q', ?_, by decide⟩
      rw [String.toList_append, String.toList_append, List.append_assoc]
      exact List.mem_append_left _ (by decide)
  cases next with
  | none =>
    refine ⟨rfl, hnumber, hname, by rintro _ ⟨⟩; exact hmessage, rfl, rfl, nofun, nofun, nofun,
      fun text htext => ?_⟩
    rcases List.mem_or_eq_of_mem_set htext with hnew | rfl
    · exact unquoted_of_mem_newCells text hnew
    · decide
  | some target =>
    exact ⟨rfl, hnumber, hname, by rintro _ ⟨⟩; exact hmessage, rfl, rfl, nofun,
      List.forall_mem_singleton.2 (hnext target rfl), nofun, unquoted_of_mem_newCells⟩

theorem tame_step {number : Int} {command : String} (hnumber : Text.InRange64 number)
    (hnext : Text.InRange64 (number + 1)) (hc : command ∈ customCommands ++ systemCommands) :
    Tame (step number command) := by
  refine ⟨rfl, hnumber, ?_, nofun, rfl, rfl, ?_, nofun, ?_, unquoted_of_mem_newCells⟩
  · exact (by decide : Unquoted "Step ").append (unquoted_toString number)
  · rintro _ ⟨⟩
    exact readable_of_mem_commands command (List.mem_cons_of_mem _ hc)
  · exact List.forall_mem_cons.2 ⟨⟨List.mem_cons_self, hnext⟩,
      List.forall_mem_singleton.2 ⟨by decide, by decide⟩⟩

theorem tame_welcome {first : Int} (hfirst : Text.InRange64 first) :
    Tame (welcome (some first)) := by
  have hnumber : Text.InRange64 1 := by decide
  have hname : Unquoted "Welcome" := by decide
  refine ⟨rfl, hnumber, hname, ?_, rfl, rfl, nofun, List.forall_mem_singleton.2 hfirst, nofun,
    unquoted_of_mem_newCells⟩
  rintro _ ⟨⟩
  decide +kernel

theorem tame_errorHandler : Tame errorHandler := by
  refine ⟨rfl, by decide, by decide, nofun, rfl, rfl, ?_, nofun,
    List.forall_mem_singleton.2 ⟨by decide, by decide⟩, by decide⟩
  rintro _ ⟨⟩
  exact readable_of_mem_commands _ List.mem_cons_self

theorem Chain.tame {exit : Option Int} {number : Int} {nodes : List Node}
    (h : Chain exit number nodes) (hnumber : 0 ≤ number) (hfar : number + nodes.length ≤ 1000000)
    (hexit : ∀ target ∈ exit, Text.InRange64 target) : ∀ node ∈ nodes, Tame node := by
  have hrange : ∀ n : Int, 0 ≤ n → n ≤ 1000000 → Text.InRange64 n :=
    fun n hlow hhigh => ⟨by omega, by omega⟩
  induction h with
  | last number =>
    rw [List.length_singleton] at hfar
    exact List.forall_mem_singleton.2 (tame_question (hrange _ hnumber (by omega)) hexit)
  | @asked number rest _ ih =>
    rw [List.length_cons] at hfar
    refine List.forall_mem_cons.2 ⟨?_, ih (by omega) (by omega)⟩
    refine tame_question (hrange _ hnumber (by omega)) ?_
    rintro _ ⟨⟩
    exact hrange _ (by omega) (by omega)
  | @stepped number rest command hc _ ih =>
    rw [List.length_cons] at hfar
    exact List.forall_mem_cons.2 ⟨tame_step (hrange _ hnumber (by omega))
      (hrange _ (by omega) (by omega)) hc, ih (by omega) (by omega)⟩

theorem Generated.start_inRange {shape : Shape} {sample : Sample} (h : Generated shape sample) :
    ∀ flow ∈ sample.plan.flows, Text.InRange64 flow.start := by
  intro flow hflow
  obtain ⟨hlow, hhigh⟩ := h.allocated.wellFormed.assignable flow hflow
  rw [systemThreshold] at hhigh
  exact ⟨by omega, by omega⟩

/-- Every node of a sample without defects is tame. -/
theorem Generated.tame_sound {shape : Shape} {sample : Sample} (h : Generated shape sample) :
    ∀ node ∈ sound sample.plan sample.parts, Tame node := by
  refine List.forall_mem_cons.2 ⟨?_, List.forall_mem_append.2
    ⟨fun node hmem => ?_, List.forall_mem_singleton.2 tame_errorHandler⟩⟩
  · obtain ⟨first, rest, hfirst⟩ := List.exists_cons_of_ne_nil h.hasFlow
    rw [hfirst]
    exact tame_welcome (h.start_inRange first (hfirst ▸ List.mem_cons_self))
  · obtain ⟨part, hpart, hnode⟩ := List.mem_flatten.1 hmem
    obtain ⟨index, hindex⟩ := List.getElem?_of_mem hpart
    obtain ⟨flow, hflow, -, hmost, hchain⟩ := h.parts.part hindex
    obtain ⟨hlow, hhigh⟩ := h.allocated.wellFormed.assignable flow (List.mem_of_getElem? hflow)
    have hsize := h.possible.2.2
    rw [systemThreshold] at hhigh
    rw [FlowPlan.blockSize] at hsize
    refine hchain.tame hlow (by omega) (fun target htarget => ?_) node hnode
    obtain ⟨next, hnext, rfl⟩ := Option.map_eq_some_iff.1 htarget
    exact h.start_inRange next (List.mem_of_getElem? hnext)

theorem Spoiled.tame {nodes after : List Node} {spoilings : List (Option Spoiling)}
    (h : Spoiled nodes spoilings after) (ht : ∀ node ∈ nodes, Tame node) :
    ∀ node ∈ after, Tame node := by
  induction h with
  | done nodes => exact ht
  | spoiled hnode hd _ ih =>
    refine ih fun other hother => ?_
    rcases List.mem_or_eq_of_mem_set hother with hold | rfl
    · exact ht other hold
    · exact (ht _ (List.mem_of_getElem? hnode)).apply hd

theorem Generated.tame {shape : Shape} {sample : Sample} (h : Generated shape sample) :
    ∀ node ∈ sample.nodes, Tame node :=
  h.spoiled.tame h.tame_sound

/-! ### Reading a sample -/

/-- Tame nodes are read again with all their data. -/
theorem sameData_nodes_ofText {nodes : List Node} (h : ∀ node ∈ nodes, Tame node) :
    List.Forall₂ Node.SameData nodes (Table.ofText (Table.ofNodes nodes).toText).nodes := by
  rw [Table.nodes_ofText_toText_ofNodes (fun node hmem => (h node hmem).regular)
    (fun node hmem => (h node hmem).line), List.forall₂_map_right_iff, List.forall₂_same]
  exact fun node hmem => (h node hmem).writable.sameData

/-- The validator accepts a table of tame nodes exactly if the checks find nothing among them. -/
theorem valid_toText_iff {nodes : List Node} (h : ∀ node ∈ nodes, Tame node) :
    (Validation.validate {} false (Table.ofNodes nodes).toText).valid = true ↔
      Validation.issues {} nodes = [] := by
  rw [Validation.issues_of_sameData {} (sameData_nodes_ofText h), Validation.Report.valid,
    Validation.validate, Validation.issues_validateTable, List.isEmpty_iff]

end DialogTable.Sample
