import DialogTable.Proofs.Script.Inventory
import DialogTable.Proofs.Table.Edit

/-!
# What removing a script changes

Removing a custom script edits the actions that run it. Each of them gets the command without
effect and is written anew (`nodeWithout`); every other row keeps its line (`lineWithout`). For the
inventory this renames a command: the calls of the script become calls of the command without
effect, and no other command gains or loses a node (`calls_map_nodeWithout`). An upload of the
script stays, and is unused from then on.
-/

namespace DialogTable.Script

theorem isSystem_noop : isSystem noop = true := by
  decide

theorem trimmed_noop : Text.trimmed noop = noop := by
  decide +kernel

theorem ne_noop {name : String} (h : isSystem name = false) : name ≠ noop := by
  intro heq
  rw [heq, isSystem_noop] at h
  cases h

/-! ### Nodes -/

/-- The node after a script was removed. -/
def nodeWithout (name : String) (node : Node) : Node :=
  if runs name node then node.touch.withCommand noop else node

/-- The nodes that run a script call it, unless their commands are blank. -/
theorem runs_iff {name : String} {node : Node} (h : Text.NotBlank node.command) :
    runs name node = true ↔ node.callsScript = true ∧ node.script = name := by
  cases hcommand : node.command with
  | none => simp [runs, Node.callsScript, hcommand]
  | some command =>
    have hblank : Text.isBlankText command = false := h command hcommand
    simp [runs, Node.callsScript, Node.script, hcommand, hblank]

section Rename

variable {name : String} {node : Node}

theorem number_nodeWithout : (nodeWithout name node).number = node.number := by
  rw [nodeWithout]
  split
  · rfl
  · rfl

theorem callsScript_nodeWithout (h : Text.NotBlank node.command) :
    (nodeWithout name node).callsScript = node.callsScript := by
  rw [nodeWithout]
  split
  · next hruns =>
    have hkind : node.kind = .action := by
      simp only [runs, decide_eq_true_eq] at hruns
      exact hruns.1
    have hnoop : Text.isBlankText noop = false := by decide +kernel
    rw [((runs_iff h).1 hruns).1]
    simp [Node.callsScript, Node.withCommand, Node.touch, hkind, hnoop]
  · rfl

theorem script_nodeWithout (h : Text.NotBlank node.command) (hcalls : node.callsScript = true) :
    (nodeWithout name node).script = if node.script = name then noop else node.script := by
  by_cases heq : node.script = name
  · rw [nodeWithout, if_pos ((runs_iff h).2 ⟨hcalls, heq⟩), if_pos heq]
    exact trimmed_noop
  · rw [nodeWithout, if_neg fun hruns => heq ((runs_iff h).1 hruns).2, if_neg heq]

end Rename

/-! ### Calls -/

/-- The numbers of the nodes that call a script, in their order. -/
def calls (nodes : List Node) (name : String) : List Int :=
  (nodes.filter fun node => node.callsScript && node.script = name).map (·.number)

theorem calls_eq_nil_iff {nodes : List Node} {name : String} :
    calls nodes name = [] ↔ name ∉ (uses nodes).map Prod.fst := by
  rw [map_fst_uses]
  simp [calls]

/-- Removing a script turns its calls into calls of the command without effect. -/
theorem calls_map_nodeWithout {nodes : List Node} {name : String}
    (h : ∀ node ∈ nodes, Text.NotBlank node.command) (command : String) :
    calls (nodes.map (nodeWithout name)) command =
      (nodes.filter fun node => node.callsScript &&
        (if node.script = name then noop else node.script) = command).map (·.number) := by
  rw [calls, List.filter_map, List.map_map]
  have hfilter : nodes.filter ((fun node => node.callsScript && node.script = command) ∘
      nodeWithout name) = nodes.filter fun node => node.callsScript &&
        (if node.script = name then noop else node.script) = command := by
    apply List.filter_congr
    intro node hn
    show ((nodeWithout name node).callsScript && (nodeWithout name node).script = command) = _
    rw [callsScript_nodeWithout (h node hn)]
    cases hcalls : node.callsScript with
    | false => rw [Bool.false_and, Bool.false_and]
    | true => rw [script_nodeWithout (h node hn) hcalls]
  rw [hfilter]
  apply List.map_congr_left
  intro node _
  exact number_nodeWithout

section Calls

variable {nodes : List Node} {name : String}

theorem calls_removed (h : ∀ node ∈ nodes, Text.NotBlank node.command)
    (hcustom : isSystem name = false) : calls (nodes.map (nodeWithout name)) name = [] := by
  have hne := ne_noop hcustom
  rw [calls_map_nodeWithout h, List.map_eq_nil_iff, List.filter_eq_nil_iff]
  intro node _
  by_cases heq : node.script = name
  · simp [heq, Ne.symm hne]
  · simp [heq]

theorem calls_other (h : ∀ node ∈ nodes, Text.NotBlank node.command) {command : String}
    (hname : command ≠ name) (hnoop : command ≠ noop) :
    calls (nodes.map (nodeWithout name)) command = calls nodes command := by
  rw [calls_map_nodeWithout h, calls]
  refine congrArg (List.map _) (List.filter_congr fun node _ => ?_)
  by_cases heq : node.script = name
  · simp [heq, Ne.symm hname, Ne.symm hnoop]
  · simp [heq]

/-- The command without effect gets the nodes of the script, each at its place. -/
theorem calls_noop (h : ∀ node ∈ nodes, Text.NotBlank node.command) :
    calls (nodes.map (nodeWithout name)) noop =
      (nodes.filter fun node =>
        node.callsScript && node.script = noop || runs name node).map (·.number) := by
  rw [calls_map_nodeWithout h]
  refine congrArg (List.map _) (List.filter_congr fun node hn => ?_)
  rw [Bool.eq_iff_iff, Bool.or_eq_true, runs_iff (h node hn)]
  by_cases heq : node.script = name
  · simp +contextual [heq]
  · simp [heq]

end Calls

namespace Inventory

variable {uploads : Uploads} {nodes : List Node}

/-- The nodes under a command. There are none if it has no reference. -/
def nodesOf (inventory : Inventory) (command : String) : List Int :=
  ((inventory.references.find? (·.name = command)).map Reference.nodes).getD []

theorem nodesOf_ofNodes (uploads : Uploads) (nodes : List Node) (command : String) :
    (ofNodes uploads nodes).nodesOf command = calls nodes command := by
  rw [nodesOf]
  cases hfind : (ofNodes uploads nodes).references.find? (·.name = command) with
  | none =>
    have hnot : command ∉ (ofNodes uploads nodes).references.map (·.name) := by
      intro hmem
      obtain ⟨reference, href, hname⟩ := List.mem_map.1 hmem
      exact List.find?_eq_none.1 hfind reference href (decide_eq_true hname)
    rw [names_ofNodes, List.mem_eraseDups] at hnot
    exact (calls_eq_nil_iff.2 hnot).symm
  | some reference =>
    have hname : reference.name = command := by simpa using List.find?_some hfind
    show reference.nodes = calls nodes command
    rw [nodes_of_mem_references (List.mem_of_find?_eq_some hfind), List.filter_filter, hname]
    simp [calls, Bool.and_comm]

theorem mem_names_ofNodes_iff {command : String} :
    command ∈ (ofNodes uploads nodes).references.map (·.name) ↔ calls nodes command ≠ [] := by
  rw [names_ofNodes, List.mem_eraseDups, Ne, calls_eq_nil_iff, not_not]

/-- A command that nobody calls is listed as an upload at most. -/
theorem not_listed_of_calls_eq_nil {name : String} (h : calls nodes name = []) :
    let inventory := ofNodes uploads nodes
    name ∉ inventory.references.map (·.name) ∧ name ∉ inventory.systemCommands ∧
      name ∉ inventory.customCommands ∧ name ∉ inventory.missing ∧
      (name ∈ inventory.unused ↔ name ∈ uploads.names) := by
  intro inventory
  have hnames : name ∉ inventory.references.map (·.name) := fun hmem =>
    mem_names_ofNodes_iff.1 hmem h
  refine ⟨hnames, fun hmem => hnames ?_, fun hmem => hnames ?_, fun hmem => hnames ?_, ?_⟩
  · rw [systemCommands_ofNodes] at hmem
    exact (List.mem_filter.1 hmem).1
  · rw [customCommands_ofNodes] at hmem
    exact (List.mem_filter.1 hmem).1
  · rw [missing_ofNodes, customCommands_ofNodes] at hmem
    exact (List.mem_filter.1 (List.mem_filter.1 hmem).1).1
  · rw [mem_unused_ofNodes]
    exact and_iff_left hnames

end Inventory

/-! ### Lines -/

/-- What stands for a line after a script was removed. Only a node that runs it gets a new line. -/
def lineWithout (name line : String) : String :=
  match Node.ofLine line with
  | .ok node =>
    if runs name node then Cell.encodeRow (node.withCommand noop).writtenCells else line
  | .error _ => line

theorem lineWithout_of_ok {line : String} {node : Node} (h : Node.ofLine line = .ok node)
    (name : String) :
    lineWithout name line =
      if runs name node then Cell.encodeRow (node.withCommand noop).writtenCells else line := by
  delta lineWithout
  rw [h]

/-- The lines that are not read are left alone. -/
theorem lineWithout_of_error {line : String} {reason : SkipReason}
    (h : Node.ofLine line = .error reason) (name : String) : lineWithout name line = line := by
  delta lineWithout
  rw [h]

theorem toLine_nodeWithout (name : String) (node : Node) :
    (nodeWithout name node).toLine =
      if runs name node then Cell.encodeRow (node.withCommand noop).writtenCells
      else node.toLine := by
  rw [nodeWithout]
  split
  · show Node.toLine (node.withCommand noop).touch = _
    rw [Node.toLine_touch]
  · rfl

theorem toLine_mapNode_nodeWithout (name : String) (lineNumber : Nat) (line : String) :
    ((Row.ofLine lineNumber line).mapNode (nodeWithout name)).toLine = lineWithout name line := by
  cases hline : Node.ofLine line with
  | ok node =>
    rw [Row.ofLine_of_ok hline, lineWithout_of_ok hline]
    show (nodeWithout name node).toLine = _
    rw [toLine_nodeWithout, Node.toLine_ofLine hline]
  | error reason =>
    rw [Row.ofLine_of_error hline, lineWithout_of_error hline]
    rfl

/-! ### Position by position -/

section Positions

variable {name : String} {node : Node} {nodes : List Node}

theorem positions_cons :
    positions name (node :: nodes) =
      (if runs name node then [0] else []) ++ (positions name nodes).map (· + 1) := by
  have hrest : ((nodes.zipIdx 1).filter fun entry => runs name entry.1).map Prod.snd =
      (positions name nodes).map (· + 1) := by
    rw [List.zipIdx_succ, List.filter_map, List.map_map, positions, List.map_map]
    rfl
  show (((node, 0) :: nodes.zipIdx 1).filter fun entry => runs name entry.1).map Prod.snd = _
  rw [List.filter_cons, ← hrest]
  cases runs name node with
  | false => rfl
  | true => rfl

end Positions

section Pass

variable {heading : Option String} {rows : List Row} {numbers : List Int}

/-- A node in front of the table moves all positions. -/
theorem silence_node (node : Node) (position : Nat) :
    silence ({ heading, rows := .node node :: rows }, numbers) (position + 1) =
      let removal := silence ({ heading, rows }, numbers) position
      ({ removal.1 with rows := .node node :: removal.1.rows }, removal.2) := by
  have hnodes : ({ heading, rows := .node node :: rows } : Table).nodes[position + 1]? =
      ({ heading, rows } : Table).nodes[position]? := rfl
  rw [silence, silence, hnodes]
  cases ({ heading, rows } : Table).nodes[position]? with
  | none => rfl
  | some other => rfl

/-- An unread line in front of the table moves none. -/
theorem silence_skipped (line : SkippedLine) (position : Nat) :
    silence ({ heading, rows := .skipped line :: rows }, numbers) position =
      let removal := silence ({ heading, rows }, numbers) position
      ({ removal.1 with rows := .skipped line :: removal.1.rows }, removal.2) := by
  have hnodes : ({ heading, rows := .skipped line :: rows } : Table).nodes =
      ({ heading, rows } : Table).nodes := rfl
  rw [silence, silence, hnodes]
  cases ({ heading, rows } : Table).nodes[position]? with
  | none => rfl
  | some other => cases position <;> rfl

theorem foldl_silence_node (node : Node) (positions : List Nat) :
    (positions.map (· + 1)).foldl silence ({ heading, rows := .node node :: rows }, numbers) =
      let removal := positions.foldl silence ({ heading, rows }, numbers)
      ({ removal.1 with rows := .node node :: removal.1.rows }, removal.2) := by
  induction positions generalizing heading rows numbers with
  | nil => rfl
  | cons position later ih =>
    rw [List.map_cons, List.foldl_cons, silence_node]
    exact ih

theorem foldl_silence_skipped (line : SkippedLine) (positions : List Nat) :
    positions.foldl silence ({ heading, rows := .skipped line :: rows }, numbers) =
      let removal := positions.foldl silence ({ heading, rows }, numbers)
      ({ removal.1 with rows := .skipped line :: removal.1.rows }, removal.2) := by
  induction positions generalizing heading rows numbers with
  | nil => rfl
  | cons position later ih =>
    rw [List.foldl_cons, silence_skipped]
    exact ih

/-- The pass over the positions edits the nodes that run the script, each at its place. -/
theorem foldl_silence_positions (name : String) :
    (positions name ({ heading, rows } : Table).nodes).foldl silence
        ({ heading, rows }, numbers) =
      ({ heading, rows := rows.map (Row.mapNode (nodeWithout name)) },
        numbers ++ ((({ heading, rows } : Table).nodes.filter (runs name)).map (·.number))) := by
  induction rows generalizing numbers with
  | nil => simp [positions, Table.nodes]
  | cons row rest ih =>
    cases row with
    | skipped line =>
      rw [foldl_silence_skipped]
      exact congrArg (fun removal : Table × List Int =>
        (({ removal.1 with rows := .skipped line :: removal.1.rows } : Table), removal.2)) ih
    | node node =>
      have hnodes : ({ heading, rows := .node node :: rest } : Table).nodes =
          node :: ({ heading, rows := rest } : Table).nodes := rfl
      rw [hnodes, positions_cons, List.foldl_append, List.filter_cons]
      by_cases hruns : runs name node = true
      · have hfirst : [0].foldl silence ({ heading, rows := .node node :: rest }, numbers) =
            ({ heading, rows := .node (nodeWithout name node) :: rest },
              numbers ++ [node.number]) := by
          rw [nodeWithout, if_pos hruns]
          rfl
        rw [if_pos hruns, if_pos hruns, hfirst, foldl_silence_node, ih]
        simp [Row.mapNode]
      · have hsame : nodeWithout name node = node := if_neg hruns
        rw [if_neg hruns, if_neg hruns, List.foldl_nil, foldl_silence_node, ih]
        simp [Row.mapNode, hsame]

end Pass

/-! ### Tables -/

theorem remove_of_not_isSystem {name : String} (h : isSystem (Text.trimmed name) = false)
    (table : Table) :
    remove table name =
      ({ table with rows := table.rows.map (Row.mapNode (nodeWithout (Text.trimmed name))) },
        (table.nodes.filter (runs (Text.trimmed name))).map (·.number)) := by
  simp only [remove, h, Bool.false_eq_true, if_false]
  exact foldl_silence_positions (Text.trimmed name)

theorem remove_of_isSystem {name : String} (h : isSystem (Text.trimmed name) = true)
    (table : Table) : remove table name = (table, []) := by
  simp [remove, h]

theorem heading_remove (table : Table) (name : String) :
    (remove table name).1.heading = table.heading := by
  cases h : isSystem (Text.trimmed name) with
  | true => rw [remove_of_isSystem h]
  | false => rw [remove_of_not_isSystem h]

theorem rows_remove {name : String} (h : isSystem (Text.trimmed name) = false) (table : Table) :
    (remove table name).1.rows =
      table.rows.map (Row.mapNode (nodeWithout (Text.trimmed name))) := by
  rw [remove_of_not_isSystem h]

theorem nodes_remove {name : String} (h : isSystem (Text.trimmed name) = false) (table : Table) :
    (remove table name).1.nodes = table.nodes.map (nodeWithout (Text.trimmed name)) := by
  rw [Table.nodes, rows_remove h]
  exact Row.filterMap_node?_map_mapNode _ table.rows

theorem snd_remove {name : String} (h : isSystem (Text.trimmed name) = false) (table : Table) :
    (remove table name).2 = (table.nodes.filter (runs (Text.trimmed name))).map (·.number) := by
  rw [remove_of_not_isSystem h]

/-- The lines of a text that say something. -/
def textLines (text : String) : List String :=
  (Table.numberedLines text).map Prod.snd

theorem heading_ofText (text : String) : (Table.ofText text).heading = (textLines text).head? := by
  cases hlines : Table.numberedLines text with
  | nil => rw [Table.ofText_of_nil hlines, textLines, hlines]; rfl
  | cons first later => rw [Table.ofText_of_cons hlines, textLines, hlines]; rfl

/-- A text is written as its lines, the first of them as the heading. -/
theorem toText_ofText (text : String) :
    (Table.ofText text).toText =
      Text.closeLines
        ((textLines text).head?.getD Column.headingLine :: (textLines text).tail) := by
  rw [Table.toText, heading_ofText, Table.map_rows_ofText Row.toLine_ofLine, List.map_id',
    textLines]

theorem toText_remove {name : String} (h : isSystem (Text.trimmed name) = false) (text : String) :
    (remove (Table.ofText text) name).1.toText =
      Text.closeLines ((textLines text).head?.getD Column.headingLine ::
        (textLines text).tail.map (lineWithout (Text.trimmed name))) := by
  have hrows : (Table.ofText text).rows.map
      (Row.toLine ∘ Row.mapNode (nodeWithout (Text.trimmed name))) =
      (textLines text).tail.map (lineWithout (Text.trimmed name)) := by
    rw [textLines]
    refine Table.map_rows_ofText (fun lineNumber line => ?_) text
    rw [Function.comp_apply, toLine_mapNode_nodeWithout]
  rw [Table.toText, heading_remove, heading_ofText, rows_remove h, List.map_map, hrows]

/-! ### Removal -/

/-- **Removing a script changes its users and nothing else.** For a command of the runtime nothing
is removed. For a custom script the numbers of the actions that run it are returned, in their order.
In the text the heading, the unread lines and all other rows stand as they stood. Of the nodes only
the users are edited, and only their command. In the inventory no action runs the script any more,
and it is listed only as an unused upload, if it is uploaded. The other commands keep their nodes,
but for the one without effect: it has the nodes of both, in row order. -/
theorem remove_changes_users (text name : String) :
    let table := Table.ofText text
    let removed := remove table name
    let script := Text.trimmed name
    let lines := textLines text
    (isSystem script = true → removed = (table, []) ∧
      table.toText = Text.closeLines (lines.head?.getD Column.headingLine :: lines.tail)) ∧
    (isSystem script = false →
      removed.2 = (table.nodes.filter (runs script)).map (·.number) ∧
      removed.1.toText = Text.closeLines
        (lines.head?.getD Column.headingLine :: lines.tail.map (lineWithout script)) ∧
      removed.1.nodes = table.nodes.map (nodeWithout script) ∧
      ∀ uploads,
        let before := Inventory.ofNodes uploads table.nodes
        let after := Inventory.ofNodes uploads removed.1.nodes
        (script ∉ after.references.map (·.name) ∧ script ∉ after.systemCommands ∧
          script ∉ after.customCommands ∧ script ∉ after.missing ∧
          (script ∈ after.unused ↔ script ∈ uploads.names)) ∧
        (∀ command, command ≠ script → command ≠ noop →
          after.nodesOf command = before.nodesOf command) ∧
        after.nodesOf noop = (table.nodes.filter fun node =>
          node.callsScript && node.script = noop || runs script node).map (·.number)) := by
  intro table removed script lines
  refine ⟨fun hsystem => ⟨remove_of_isSystem hsystem table, toText_ofText text⟩, fun hcustom =>
    ⟨snd_remove hcustom table, toText_remove hcustom text, nodes_remove hcustom table, ?_⟩⟩
  intro uploads before after
  have hblank : ∀ node ∈ table.nodes, Text.NotBlank node.command := fun node hn =>
    ((Table.faithful_ofText text).regular hn).command_notBlank
  have hnodes : removed.1.nodes = table.nodes.map (nodeWithout script) := nodes_remove hcustom table
  have hcalls (command : String) :
      after.nodesOf command = calls (table.nodes.map (nodeWithout script)) command := by
    rw [← hnodes]
    exact Inventory.nodesOf_ofNodes uploads removed.1.nodes command
  refine ⟨?_, fun command hscript hnoop => ?_, ?_⟩
  · apply Inventory.not_listed_of_calls_eq_nil
    rw [hnodes]
    exact calls_removed hblank hcustom
  · rw [hcalls, calls_other hblank hscript hnoop]
    exact (Inventory.nodesOf_ofNodes uploads table.nodes command).symm
  · rw [hcalls, calls_noop hblank]

/-- Two users with one number around an unread line and a decision with the same command, a name
with blanks around it, and an older node with the command without effect. -/
theorem remove_changes_users_of_repeated_number :
    let text := "h\r\n1,A,a,,,,,,,,,,,Foo\nx,y\n1,D,b,,,,,,Hi,,,,,Foo\n2,A,c,,,,,,,,,,,MockAction\n" ++
      "1,A,d,,,,,,,,,,, Foo \n"
    let removed := remove (Table.ofText text) " Foo "
    let after := Inventory.ofNodes (Uploads.ofList ["Foo"]) removed.1.nodes
    isSystem "Foo" = false ∧ removed.2 = [1, 1] ∧
      removed.1.toText = "h\n1,A,a,,,,,,,,,,,MockAction,,,,,,,,,,,,\nx,y\n1,D,b,,,,,,Hi,,,,,Foo\n" ++
        "2,A,c,,,,,,,,,,,MockAction\n1,A,d,,,,,,,,,,,MockAction,,,,,,,,,,,,\n" ∧
      after.nodesOf noop = [1, 2, 1] ∧ "Foo" ∉ after.customCommands ∧ "Foo" ∈ after.unused := by
  intro text removed after
  have hname : Text.trimmed " Foo " = "Foo" := by decide +kernel
  have hcustom : isSystem "Foo" = false := by decide
  have hall := (remove_changes_users text " Foo ").2
  rw [hname] at hall
  obtain ⟨hnumbers, htext, -, hinventory⟩ := hall hcustom
  obtain ⟨⟨-, -, hnot, -, hunused⟩, -, hnoop⟩ := hinventory (Uploads.ofList ["Foo"])
  refine ⟨hcustom, hnumbers.trans (by decide +kernel), htext.trans (by decide +kernel),
    hnoop.trans (by decide +kernel), hnot, hunused.2 (by decide +kernel)⟩

/-- An uploaded script is listed after it was removed. -/
theorem unused_of_removed_upload :
    ¬ ∀ (text name : String) (uploads : Uploads), isSystem (Text.trimmed name) = false →
      let after := Inventory.ofNodes uploads (remove (Table.ofText text) name).1.nodes
      Text.trimmed name ∉ after.references.map (·.name) ∧
        Text.trimmed name ∉ after.systemCommands ∧ Text.trimmed name ∉ after.customCommands ∧
        Text.trimmed name ∉ after.missing ∧ Text.trimmed name ∉ after.unused := by
  intro h
  obtain ⟨-, -, -, -, hnot⟩ :=
    h "h\n1,A,a,,,,,,,,,,,Foo\n" "Foo" (Uploads.ofList ["Foo"]) (by decide +kernel)
  exact hnot (by decide +kernel)

end DialogTable.Script
