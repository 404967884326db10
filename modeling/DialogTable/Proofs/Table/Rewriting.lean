import DialogTable.Proofs.Table.Edit

/-!
# Rows written anew without a change

A row that is marked for writing keeps its place, its number and its kind when the table is written
and read again. Its other data are kept too exactly when the text of every column can be written so
that it reads back, that is, when its commas can be guarded and, unless nothing follows, its quotes
come in pairs; or else when cells behind the last column happen to spell a misread routing table
again.
-/

namespace DialogTable.Table

/-- The lines of a table that was read are those of the text that say something, but for a heading
that was missing. -/
theorem mem_lines_of_mem_writtenLines_ofText {text line : String}
    (h : line ∈ (ofText text).writtenLines) :
    line = Column.headingLine ∨
      line.toList ∈ Text.lines text.toList ∧ Text.isBlankText line = false := by
  rcases List.mem_cons.1 h with rfl | h
  · cases hlines : numberedLines text with
    | nil =>
      rw [ofText_of_nil hlines]
      exact .inl rfl
    | cons first later =>
      rw [ofText_of_cons hlines]
      exact .inr (mem_of_mem_numberedLines (hlines ▸ List.mem_cons_self))
  · obtain ⟨row, hrow, rfl⟩ := List.mem_map.1 h
    obtain ⟨numbered, hmem, heq⟩ := rows_ofText hrow
    rw [heq, Row.toLine_ofLine]
    exact .inr (mem_of_mem_numberedLines hmem)

theorem oneLine_of_mem_writtenLines_ofText {text : String} (h : '\r' ∉ text.toList) :
    ∀ line ∈ (ofText text).writtenLines, Cell.OneLine line.toList := by
  intro line hline
  rcases mem_lines_of_mem_writtenLines_ofText hline with rfl | ⟨hmem, -⟩
  · exact oneLine_headingLine
  · intro c hc
    obtain ⟨hfeed, hmem⟩ := Text.ne_lineFeed_of_mem_lines hmem hc
    exact ⟨hfeed, fun hreturn => h (hreturn ▸ hmem)⟩

theorem noReturns_of_oneLine {table : Table}
    (h : ∀ line ∈ table.writtenLines, Cell.OneLine line.toList) : table.NoReturns :=
  fun line hl => (h line hl).getLast?_ne_return

/-- A table keeps the ends of the lines that it was read from. -/
theorem noReturns_ofText_of_notBlank {text : String}
    (h : ∀ line ∈ Text.lines text.toList, Text.allBlank line = false → line.getLast? ≠ some '\r') :
    (ofText text).NoReturns := by
  intro line hline
  rcases mem_lines_of_mem_writtenLines_ofText hline with rfl | ⟨hmem, hblank⟩
  · exact oneLine_headingLine.getLast?_ne_return
  · exact h line.toList hmem hblank

theorem noReturns_ofText {text : String}
    (h : ∀ line ∈ Text.lines text.toList, line.getLast? ≠ some '\r') : (ofText text).NoReturns :=
  noReturns_ofText_of_notBlank fun line hline _ => h line hline

/-- A node of a table that was read has its line. -/
theorem ofLine_of_mem_nodes_ofText {text : String} {node : Node} (h : node ∈ (ofText text).nodes) :
    ∃ line, Node.ofLine line = .ok node ∧ line ∈ (ofText text).writtenLines := by
  obtain ⟨numbered, hmem, heq⟩ := rows_ofText (mem_nodes.1 h)
  refine ⟨numbered.2, ?_, List.mem_cons_of_mem _ (List.mem_map.2 ⟨.node node, mem_nodes.1 h, ?_⟩)⟩
  · cases hfound : Node.ofLine numbered.2 with
    | ok found =>
      rw [Row.ofLine_of_ok hfound] at heq
      rw [Row.node.inj heq]
    | error reason =>
      rw [Row.ofLine_of_error hfound] at heq
      cases heq
  · rw [heq, Row.toLine_ofLine]

theorem oneLine_of_mem_nodes_ofText {text : String} (h : '\r' ∉ text.toList) {node : Node}
    (hn : node ∈ (ofText text).nodes) : node.OneLine := by
  obtain ⟨line, hline, hmem⟩ := ofLine_of_mem_nodes_ofText hn
  exact Node.oneLine_ofLine hline (oneLine_of_mem_writtenLines_ofText h line hmem)

theorem edits_of_touched {text : String} {edited : Table} {number : Int}
    (h : edited = (ofText text).editNode number id ∨ edited = (ofText text).touchAll) :
    Edits (ofText text) edited := by
  rcases h with rfl | rfl
  · exact edits_editNode_id (faithful_ofText text) number
  · exact edits_touchAll (faithful_ofText text)

/-- A node whose row is written anew is found again in its place with its number and its kind. The
other typed fields and the columns that are only carried along are the same exactly if the texts of
all columns can be written so that they read back, or its routes are spelled again by cells behind
the last column. -/
theorem sameData_reread_touched_iff {text : String} {edited : Table} {number : Int}
    {position : Nat} {node : Node} (hreturn : '\r' ∉ text.toList)
    (hedited : edited = (ofText text).editNode number id ∨ edited = (ofText text).touchAll)
    (hold : (ofText text).nodes[position]? = some node)
    (hnew : edited.nodes[position]? = some node.touch) :
    ∃ reread, (ofText edited.toText).nodes[position]? = some reread ∧
      reread.number = node.number ∧ reread.kind = node.kind ∧
      (node.SameData reread ↔ node.Rewritable ∨ node.Respelled) := by
  have hedits : Edits (ofText text) edited := edits_of_touched hedited
  have hlines := oneLine_of_mem_writtenLines_ofText hreturn
  have hreturns : edited.NoReturns :=
    noReturns_of_oneLine fun line hl => hedits.oneLine_of_mem_writtenLines hlines hl
  have hnode : node ∈ (ofText text).nodes := List.mem_of_getElem? hold
  have hregular : node.Regular := (faithful_ofText text).regular hnode
  have hone : node.OneLine := oneLine_of_mem_nodes_ofText hreturn hnode
  refine ⟨node.readBack, ?_, node.number_readBack, node.kind_readBack,
    Node.sameData_readBack_iff hregular hone⟩
  rw [nodes_ofText_toText (hedits.faithful (faithful_ofText text)) hreturns, List.getElem?_map,
    hnew, Option.map_some, Node.reread_of_line_none node.line_touch, Node.readBack_touch]

theorem sameData_reread_start :
    ∃ reread, (ofText ((ofText "h\n1,D,Start").editNode 1 id).toText).nodes[0]? = some reread ∧
      (Node.ofCells 1 .decision ["1", "D", "Start"] "1,D,Start").SameData reread := by
  have hreturn : '\r' ∉ "h\n1,D,Start".toList := by decide +kernel
  have hold : (ofText "h\n1,D,Start").nodes[0]? =
      some (Node.ofCells 1 .decision ["1", "D", "Start"] "1,D,Start") := by decide +kernel
  have hnew : ((ofText "h\n1,D,Start").editNode 1 id).nodes[0]? =
      some (Node.ofCells 1 .decision ["1", "D", "Start"] "1,D,Start").touch := by decide +kernel
  obtain ⟨reread, hread, -, -, hsame⟩ := sameData_reread_touched_iff hreturn (.inl rfl) hold hnew
  exact ⟨reread, hread, hsame.2 (.inl (by decide +kernel))⟩

/-- A quote inside a name is written as it stands, and guards the commas behind the name. -/
theorem name_lost_of_quote :
    ¬ ∀ (text : String) (position : Nat) (node : Node), '\r' ∉ text.toList →
      (ofText text).nodes[position]? = some node →
      ∃ reread, (ofText (ofText text).touchAll.toText).nodes[position]? = some reread ∧
        node.SameData reread := by
  intro h
  obtain ⟨reread, hread, hsame⟩ := h
    "Node Number,Node Type,Node Name\n1,D,\"a\"b,,,,,,,,,,,,,,,,,,,,,,,\n" 0
    (Node.ofCells 1 .decision (["1", "D", "a\"b"] ++ List.replicate 23 "")
      "1,D,\"a\"b,,,,,,,,,,,,,,,,,,,,,,,") (by decide +kernel) (by decide +kernel)
  have hname := congrArg (Option.map Node.name) hread
  rw [Option.map_some, ← hsame.name] at hname
  exact absurd hname (by decide +kernel)

end DialogTable.Table
