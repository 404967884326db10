import DialogTable.Proofs.Distinct
import DialogTable.Proofs.Script.Uploads
import DialogTable.Proofs.Text.Parts

/-!
# What the inventory accounts for

A node calls a script if it is an action with a command that says something. The references of the
inventory hold each call once, under the command without the blanks around it, and the lists of
commands and uploads are derived from the names of the references (`accounts_ofNodes`).
-/

namespace DialogTable

namespace Node

/-- Whether the node is an action with a command that says something. -/
def callsScript (node : Node) : Bool :=
  node.kind = .action && node.command.any fun command => !Text.isBlankText command

/-- The command without the blanks around it. -/
def script (node : Node) : String :=
  Text.trimmed (node.command.getD "")

theorem isBlankText_trimmed (text : String) :
    Text.isBlankText (Text.trimmed text) = Text.isBlankText text := by
  rw [Text.isBlankText, Text.trimmed, String.toList_ofList, Text.allBlank_trim]
  rfl

theorem commandName_eq (node : Node) :
    node.commandName =
      if node.command.any fun command => !Text.isBlankText command then some node.script
      else none := by
  cases h : node.command with
  | none => simp [commandName, h]
  | some command =>
    rw [commandName, script, h, Option.bind_some, Text.unlessBlank, isBlankText_trimmed]
    cases hblank : Text.isBlankText command
    · simp [hblank]
    · simp [hblank]

end Node

namespace Script

/-- The uses are the calls, each with its script and its node. -/
theorem uses_eq (nodes : List Node) :
    uses nodes =
      (nodes.filter (·.callsScript)).map fun node => (node.script, node.number) := by
  induction nodes with
  | nil => rfl
  | cons node rest ih =>
    rw [uses, List.filterMap_cons, ← uses, ih, List.filter_cons, Node.commandName_eq,
      Node.callsScript]
    by_cases hkind : node.kind = .action
    · cases hcommand : node.command.any fun command => !Text.isBlankText command
      · simp [hkind]
      · simp [hkind]
    · simp [hkind]

theorem map_fst_uses (nodes : List Node) :
    (uses nodes).map Prod.fst = (nodes.filter (·.callsScript)).map Node.script := by
  rw [uses_eq, List.map_map]
  rfl

namespace Inventory

variable {uploads : Uploads} {nodes : List Node}

/-! ### The pass over the uses -/

/-- The reference with a name after some uses. -/
def referenceTo (uploads : Uploads) (used : List (String × Int)) (name : String) : Reference where
  name := name
  isSystem := isSystem name
  uploaded := !isSystem name && uploads.contains name
  nodes := (used.filter (·.1 = name)).map Prod.snd

/-- The references after some uses: one for each name, in the order of first use. -/
def referencesTo (uploads : Uploads) (used : List (String × Int)) : List Reference :=
  (used.map Prod.fst).eraseDups.map (referenceTo uploads used)

section Pass

variable {used : List (String × Int)} {use : String × Int} {name : String}

theorem referenceTo_concat_self :
    referenceTo uploads (used ++ [use]) use.1 =
      { referenceTo uploads used use.1 with
        nodes := (referenceTo uploads used use.1).nodes ++ [use.2] } := by
  simp [referenceTo]

theorem referenceTo_concat_of_ne (h : name ≠ use.1) :
    referenceTo uploads (used ++ [use]) name = referenceTo uploads used name := by
  simp [referenceTo, Ne.symm h]

/-- A use of a name that is there is added to its reference. -/
theorem addUse_of_mem {names : List String} (hnodup : names.Nodup) (h : use.1 ∈ names) :
    addUse uploads use (names.map (referenceTo uploads used)) =
      names.map (referenceTo uploads (used ++ [use])) := by
  induction names with
  | nil => cases h
  | cons first rest ih =>
    obtain ⟨hfirst, hrest⟩ := List.nodup_cons.1 hnodup
    rw [List.map_cons, addUse, List.map_cons]
    by_cases heq : first = use.1
    · have hothers : rest.map (referenceTo uploads (used ++ [use])) =
          rest.map (referenceTo uploads used) :=
        List.map_congr_left fun name hname => referenceTo_concat_of_ne fun hsame =>
          hfirst (by rwa [heq, ← hsame])
      rw [hothers, heq, referenceTo_concat_self]
      exact if_pos rfl
    · rw [referenceTo_concat_of_ne heq, ← ih hrest ((List.mem_cons.1 h).resolve_left (Ne.symm heq))]
      exact if_neg heq

/-- A use of a new name gets a reference of its own. -/
theorem addUse_of_not_mem {names : List String} (h : use.1 ∉ names)
    (hnone : used.filter (·.1 = use.1) = []) :
    addUse uploads use (names.map (referenceTo uploads used)) =
      (names ++ [use.1]).map (referenceTo uploads (used ++ [use])) := by
  induction names with
  | nil => simp [addUse, referenceTo, hnone]
  | cons first rest ih =>
    rw [List.mem_cons, not_or] at h
    obtain ⟨hfirst, hrest⟩ := h
    rw [List.map_cons, addUse, List.cons_append, List.map_cons, ← ih hrest,
      referenceTo_concat_of_ne (Ne.symm hfirst)]
    exact if_neg (Ne.symm hfirst)

/-- The invariant of the pass. -/
theorem addUse_referencesTo :
    addUse uploads use (referencesTo uploads used) = referencesTo uploads (used ++ [use]) := by
  rw [referencesTo, referencesTo, List.map_append, List.map_singleton, eraseDups_concat]
  split
  · next hmem => exact addUse_of_mem (eachOnce_eraseDups _).nodup (List.mem_eraseDups.2 hmem)
  · next hmem =>
    have hnone : used.filter (·.1 = use.1) = [] := by
      rw [List.filter_eq_nil_iff]
      intro earlier hearlier hsame
      exact hmem (of_decide_eq_true hsame ▸ List.mem_map_of_mem hearlier)
    exact addUse_of_not_mem (fun h => hmem (List.mem_eraseDups.1 h)) hnone

end Pass

theorem references_ofNodes :
    (ofNodes uploads nodes).references = referencesTo uploads (uses nodes) := by
  have hpass : ∀ done later : List (String × Int),
      later.foldl (fun references use => addUse uploads use references)
        (referencesTo uploads done) = referencesTo uploads (done ++ later) := by
    intro done later
    induction later generalizing done with
    | nil => rw [List.append_nil]; rfl
    | cons use rest ih =>
      rw [List.foldl_cons, addUse_referencesTo, ih, List.append_assoc]
      rfl
  exact hpass [] (uses nodes)

/-- The names in use, in the order of first use. -/
theorem names_ofNodes :
    (ofNodes uploads nodes).references.map (·.name) = ((uses nodes).map Prod.fst).eraseDups := by
  rw [references_ofNodes, referencesTo, List.map_map]
  exact List.map_id _

/-- A reference is known from its name. -/
theorem eq_of_mem_references {reference : Reference}
    (h : reference ∈ (ofNodes uploads nodes).references) :
    reference.isSystem = isSystem reference.name ∧
      reference.uploaded = (!isSystem reference.name && uploads.contains reference.name) ∧
      reference.nodes = ((uses nodes).filter (·.1 = reference.name)).map Prod.snd := by
  rw [references_ofNodes] at h
  obtain ⟨name, -, rfl⟩ := List.mem_map.1 h
  exact ⟨rfl, rfl, rfl⟩

/-! ### What the references hold -/

/-- The references hold each use once. -/
theorem perm_references (uploads : Uploads) (nodes : List Node) :
    ((ofNodes uploads nodes).references.flatMap fun reference =>
      reference.nodes.map fun number => (reference.name, number)).Perm (uses nodes) := by
  have hgroups : ((ofNodes uploads nodes).references.flatMap fun reference =>
      reference.nodes.map fun number => (reference.name, number)) =
      ((uses nodes).map Prod.fst).eraseDups.flatMap fun name =>
        (uses nodes).filter (·.1 = name) := by
    rw [references_ofNodes, referencesTo, List.flatMap_map]
    apply List.flatMap_congr
    intro name _
    show ((_ : List (String × Int)).map Prod.snd).map (fun number => (name, number)) = _
    rw [List.map_map]
    conv_rhs => rw [← List.map_id ((uses nodes).filter (·.1 = name))]
    apply List.map_congr_left
    intro use huse
    rw [List.mem_filter, decide_eq_true_eq] at huse
    rw [Function.comp_apply, ← huse.2, id]
  rw [hgroups]
  refine perm_flatMap_filter (eachOnce_eraseDups _).nodup fun use huse => ?_
  rw [List.mem_eraseDups]
  exact List.mem_map_of_mem huse

/-- A reference has the nodes that call its script, in their order. -/
theorem nodes_of_mem_references {reference : Reference}
    (h : reference ∈ (ofNodes uploads nodes).references) :
    reference.nodes =
      ((nodes.filter (·.callsScript)).filter (·.script = reference.name)).map (·.number) := by
  rw [(eq_of_mem_references h).2.2, uses_eq, List.filter_map, List.map_map]
  simp only [Function.comp_def]

/-! ### The lists that are derived from the references -/

/-- The names of the references that a condition on the name picks. -/
theorem map_name_filter {inventory : Inventory} {p : Reference → Bool} {q : String → Bool}
    (h : ∀ reference ∈ inventory.references, p reference = q reference.name) :
    (inventory.references.filter p).map (·.name) =
      (inventory.references.map (·.name)).filter q := by
  rw [List.filter_map]
  exact congrArg _ (List.filter_congr h)

theorem systemCommands_ofNodes :
    (ofNodes uploads nodes).systemCommands =
      ((ofNodes uploads nodes).references.map (·.name)).filter (· ∈ Script.systemCommands) := by
  refine map_name_filter fun reference href => ?_
  rw [(eq_of_mem_references href).1, isSystem]

theorem customCommands_ofNodes :
    (ofNodes uploads nodes).customCommands =
      ((ofNodes uploads nodes).references.map (·.name)).filter (· ∉ Script.systemCommands) := by
  refine map_name_filter fun reference href => ?_
  rw [(eq_of_mem_references href).1, isSystem, decide_not]

theorem missing_ofNodes :
    (ofNodes uploads nodes).missing =
      (ofNodes uploads nodes).customCommands.filter (· ∉ uploads.names) := by
  rw [customCommands_ofNodes, List.filter_filter]
  refine map_name_filter fun reference href => ?_
  obtain ⟨hsystem, huploaded, -⟩ := eq_of_mem_references href
  rw [hsystem, huploaded, Uploads.contains, isSystem]
  by_cases h : reference.name ∈ Script.systemCommands
  · simp [h]
  · simp [h]

theorem mem_unused_ofNodes {name : String} :
    name ∈ (ofNodes uploads nodes).unused ↔
      name ∈ uploads.names ∧ name ∉ (ofNodes uploads nodes).references.map (·.name) := by
  rw [ofNodes]
  simp

/-! ### The account -/

/-- **The inventory accounts for every call.** The references hold each action with a command that
says something once, under its script, and nothing else; in each reference the nodes stand in their
order. The names are those of the scripts, each once, in the order of first use. The commands of the
runtime and the custom ones are the names that the runtime provides and the others. Missing are the
custom ones that are not uploaded; unused are the uploads that no reference names, in ascending
order. So each upload is named or unused, and none is missing. -/
theorem accounts_ofNodes (h : uploads.Ascending) (nodes : List Node) :
    let inventory := ofNodes uploads nodes
    let callers := nodes.filter (·.callsScript)
    let names := inventory.references.map (·.name)
    (inventory.references.flatMap fun reference =>
        reference.nodes.map fun number => (reference.name, number)).Perm
      (callers.map fun node => (node.script, node.number)) ∧
    (∀ reference ∈ inventory.references,
      reference.nodes = (callers.filter (·.script = reference.name)).map (·.number)) ∧
    EachOnce names (callers.map Node.script) ∧
    inventory.systemCommands = names.filter (· ∈ Script.systemCommands) ∧
    inventory.customCommands = names.filter (· ∉ Script.systemCommands) ∧
    inventory.missing = inventory.customCommands.filter (· ∉ uploads.names) ∧
    inventory.unused.Pairwise (· < ·) ∧
    (∀ name, name ∈ inventory.unused ↔ name ∈ uploads.names ∧ name ∉ names) ∧
    ∀ name ∈ uploads.names,
      (name ∈ names ∨ name ∈ inventory.unused) ∧ name ∉ inventory.missing := by
  intro inventory callers names
  refine ⟨?_, fun _ => nodes_of_mem_references, ?_, systemCommands_ofNodes, customCommands_ofNodes,
    missing_ofNodes, h.filter _, fun _ => mem_unused_ofNodes, fun name hname => ⟨?_, ?_⟩⟩
  · have huses : uses nodes = callers.map fun node => (node.script, node.number) := uses_eq nodes
    rw [← huses]
    exact perm_references uploads nodes
  · have hnames : names = ((uses nodes).map Prod.fst).eraseDups := names_ofNodes
    rw [hnames, map_fst_uses]
    exact eachOnce_eraseDups _
  · by_cases hmem : name ∈ names
    · exact .inl hmem
    · exact .inr (mem_unused_ofNodes.2 ⟨hname, hmem⟩)
  · rw [missing_ofNodes, List.mem_filter]
    rintro ⟨-, hnot⟩
    exact of_decide_eq_true hnot hname

/-- Two spellings of one command, a decision with it, a blank command, and uploads out of order. -/
theorem accounts_ofNodes_of_two_spellings :
    let uploads := Uploads.ofList ["Zoom", "Bar", "SetVar"]
    let nodes : List Node :=
      [{ number := 1, kind := .action, name := "a", command := some " Foo " },
        { number := 2, kind := .decision, name := "b", command := some "Foo" },
        { number := 3, kind := .action, name := "c", command := some "SetVar" },
        { number := 1, kind := .action, name := "d", command := some "Foo" },
        { number := 5, kind := .action, name := "e", command := some "  " },
        { number := 6, kind := .action, name := "f", command := some "Bar" }]
    let inventory := ofNodes uploads nodes
    uploads.Ascending ∧
      (inventory.references.flatMap fun reference =>
        reference.nodes.map fun number => (reference.name, number)).Perm
          [("Foo", 1), ("SetVar", 3), ("Foo", 1), ("Bar", 6)] ∧
      inventory.systemCommands = ["SetVar"] ∧ inventory.customCommands = ["Foo", "Bar"] ∧
      inventory.missing = ["Foo"] ∧ "Zoom" ∈ inventory.unused ∧ "Bar" ∉ inventory.missing := by
  intro uploads nodes inventory
  have huploads : uploads.Ascending := Uploads.ascending_ofList _
  have hnames : inventory.references.map (·.name) = ["Foo", "SetVar", "Bar"] := by decide +kernel
  have hmem : "Zoom" ∈ uploads.names ∧ "Bar" ∈ uploads.names := by decide +kernel
  have hall := accounts_ofNodes huploads nodes
  dsimp only at hall
  rw [hnames] at hall
  obtain ⟨hperm, -, -, hsystem, hcustom, hmissing, -, hunused, huploaded⟩ := hall
  rw [hcustom] at hmissing
  refine ⟨huploads, hperm.trans ?_, hsystem.trans (by decide), hcustom.trans (by decide),
    hmissing.trans (by decide +kernel), (hunused _).2 ⟨hmem.1, by decide⟩,
    (huploaded _ hmem.2).2⟩
  have hcalls : (nodes.filter (·.callsScript)).map (fun node => (node.script, node.number)) =
      [("Foo", 1), ("SetVar", 3), ("Foo", 1), ("Bar", 6)] := by decide +kernel
  rw [hcalls]

end Inventory

end Script

end DialogTable
