import DialogTable.Table
import DialogTable.Proofs.Node.ReadBack
import DialogTable.Proofs.Text.Lines

/-!
# Reading a written table

A table is faithful if each of its lines was read from a text: a node that still has its line is
what reading makes of the line. A table that was read is faithful, and edits that leave the nodes
regular keep it so. The main statement `nodes_ofText_toText` says which nodes are found when a
faithful table is written and read again: the pristine ones, and of the others what `readBack`
gives. A carriage return at the end of a line is the one thing that is lost on the way
(`toText_ofText_toText_iff`).
-/

namespace DialogTable

/-- A line that keeps its place in a text: it has no line feed and says something. -/
structure Text.Plain (line : String) : Prop where
  lineFeed : '\n' ∉ line.toList
  notBlank : Text.isBlankText line = false

/-- The line without a carriage return at its end. -/
def Text.withoutReturn (line : String) : String :=
  .ofList (Text.dropReturn line.toList)

/-- A regular node that, if it still has its line, is what is read from it. -/
structure Node.Faithful (node : Node) : Prop where
  regular : node.Regular
  plain : ∀ line, node.line = some line → Text.Plain line
  ofLine : ∀ line, node.line = some line → Node.ofLine line = .ok node

/-- What a node becomes when its table is written and read again. -/
def Node.reread (node : Node) : Node :=
  if node.isPristine then node else node.readBack

/-- A row that was read from its line. -/
def Row.Faithful : Row → Prop
  | node n => n.Faithful
  | skipped s => Text.Plain s.line ∧ Node.ofLine s.line = .error s.reason

/-- The lines that are written for a table. -/
def Table.writtenLines (table : Table) : List String :=
  table.heading.getD Column.headingLine :: table.rows.map Row.toLine

/-- A table whose lines were read from a text. -/
structure Table.Faithful (table : Table) : Prop where
  heading : ∀ heading, table.heading = some heading → Text.Plain heading
  rows : ∀ row ∈ table.rows, row.Faithful

/-- No written line ends in a carriage return. -/
def Table.NoReturns (table : Table) : Prop :=
  ∀ line ∈ table.writtenLines, line.toList.getLast? ≠ some '\r'

/-! ### Lines that say something -/

namespace Text

theorem allBlank_dropReturn (line : List Char) : allBlank (dropReturn line) = allBlank line := by
  rw [dropReturn]
  split
  · next h =>
    obtain ⟨start, rfl⟩ := List.getLast?_eq_some_iff.1 h
    have hblank : isBlank '\r' = true := by decide
    rw [List.dropLast_concat, allBlank, allBlank, List.all_append, List.all_cons, hblank]
    simp
  · rfl

theorem withoutReturn_eq_self_iff (line : String) :
    withoutReturn line = line ↔ line.toList.getLast? ≠ some '\r' := by
  constructor
  · intro h hlast
    have hlen : (dropReturn line.toList).length = line.toList.length := by
      conv_rhs => rw [← h, withoutReturn, String.toList_ofList]
    exact absurd hlen (Nat.ne_of_lt (length_dropReturn_lt hlast))
  · intro h
    rw [withoutReturn, dropReturn_eq_self h, String.ofList_toList]

theorem map_withoutReturn_eq_self_iff (lines : List String) :
    lines.map withoutReturn = lines ↔ ∀ line ∈ lines, line.toList.getLast? ≠ some '\r' := by
  conv_lhs => rhs; rw [← List.map_id lines]
  rw [List.map_inj_left]
  exact forall₂_congr fun line _ => withoutReturn_eq_self_iff line

end Text

namespace Table

theorem map_snd_numberedLines (text : String) :
    (numberedLines text).map Prod.snd =
      ((Text.lines text.toList).filter fun line => !Text.allBlank line).map String.ofList := by
  rw [numberedLines]
  generalize 1 = start
  induction Text.lines text.toList generalizing start with
  | nil => rfl
  | cons line later ih =>
    rw [List.zipIdx_cons, List.filterMap_cons, List.filter_cons]
    cases hblank : Text.allBlank line
    · simpa [hblank] using ih (start + 1)
    · simpa [hblank] using ih (start + 1)

theorem mem_of_mem_numberedLines {text : String} {numbered : Nat × String}
    (h : numbered ∈ numberedLines text) :
    numbered.2.toList ∈ Text.lines text.toList ∧ Text.isBlankText numbered.2 = false := by
  have hmem : numbered.2 ∈ (numberedLines text).map Prod.snd := List.mem_map_of_mem h
  rw [map_snd_numberedLines, List.mem_map] at hmem
  obtain ⟨line, hline, heq⟩ := hmem
  rw [List.mem_filter, Bool.not_eq_true'] at hline
  rw [← heq, Text.isBlankText, String.toList_ofList]
  exact hline

theorem plain_of_mem_numberedLines {text : String} :
    ∀ numbered ∈ numberedLines text, Text.Plain numbered.2 := by
  intro numbered h
  obtain ⟨hline, hblank⟩ := mem_of_mem_numberedLines h
  exact ⟨fun hfeed => (Text.ne_lineFeed_of_mem_lines hline hfeed).1 rfl, hblank⟩

/-- The lines that are found again are the plain ones, less the carriage returns at their ends. -/
theorem map_snd_numberedLines_closeLines {lines : List String}
    (h : ∀ line ∈ lines, Text.Plain line) :
    (numberedLines (Text.closeLines lines)).map Prod.snd = lines.map Text.withoutReturn := by
  rw [map_snd_numberedLines, Text.lines_closeLines fun line hl => (h line hl).lineFeed,
    List.filter_eq_self.2, List.map_map]
  · rfl
  · intro found hfound
    obtain ⟨line, hline, rfl⟩ := List.mem_map.1 hfound
    have hsome : Text.allBlank line.toList = false := (h line hline).notBlank
    rw [Text.allBlank_dropReturn, hsome, Bool.not_false]

end Table

/-! ### Reading rows -/

namespace Row

theorem ofLine_of_ok {lineNumber : Nat} {line : String} {node : Node}
    (h : Node.ofLine line = .ok node) : ofLine lineNumber line = .node node := by
  delta ofLine
  rw [h]

theorem ofLine_of_error {lineNumber : Nat} {line : String} {reason : SkipReason}
    (h : Node.ofLine line = .error reason) :
    ofLine lineNumber line = .skipped { lineNumber, line, reason } := by
  delta ofLine
  rw [h]

theorem toLine_ofLine (lineNumber : Nat) (line : String) :
    (ofLine lineNumber line).toLine = line := by
  cases h : Node.ofLine line with
  | ok node =>
    rw [ofLine_of_ok h]
    exact Node.toLine_ofLine h
  | error reason =>
    rw [ofLine_of_error h]
    rfl

theorem node?_ofLine (lineNumber : Nat) (line : String) :
    (ofLine lineNumber line).node? = (Node.ofLine line).toOption := by
  cases h : Node.ofLine line with
  | ok node =>
    rw [ofLine_of_ok h]
    rfl
  | error reason =>
    rw [ofLine_of_error h]
    rfl

end Row

namespace Node

theorem line_of_ofLine {line : String} {node : Node} (h : ofLine line = .ok node) :
    node.line = some line := by
  obtain ⟨number, kind, -, rfl⟩ := ofLine_eq_ok h
  rfl

theorem faithful_of_ofLine {line : String} {node : Node} (h : ofLine line = .ok node)
    (hplain : Text.Plain line) : node.Faithful where
  regular := regular_ofLine h
  plain other hother := by
    rw [line_of_ofLine h] at hother
    rw [← Option.some.inj hother]
    exact hplain
  ofLine other hother := by
    rw [line_of_ofLine h] at hother
    rw [← Option.some.inj hother]
    exact h

/-- A node that will be written anew is faithful as soon as it is regular. -/
theorem faithful_of_line_none {node : Node} (hr : node.Regular) (h : node.line = none) :
    node.Faithful where
  regular := hr
  plain line hl := by
    rw [h] at hl
    cases hl
  ofLine line hl := by
    rw [h] at hl
    cases hl

end Node

namespace Table

theorem ofText_of_nil {text : String} (h : numberedLines text = []) : ofText text = {} := by
  delta ofText
  rw [h]

theorem ofText_of_cons {text : String} {first : Nat × String} {later : List (Nat × String)}
    (h : numberedLines text = first :: later) :
    ofText text =
      { heading := some first.2
        rows := later.map fun numbered => Row.ofLine numbered.1 numbered.2 } := by
  delta ofText
  rw [h]

/-- The rows of a table that was read are the lines behind the first one. -/
theorem rows_ofText_eq (text : String) :
    (ofText text).rows =
      (numberedLines text).tail.map fun numbered => Row.ofLine numbered.1 numbered.2 := by
  cases hlines : numberedLines text with
  | nil =>
    rw [ofText_of_nil hlines]
    rfl
  | cons first later => rw [ofText_of_cons hlines, List.tail_cons]

theorem rows_ofText {text : String} {row : Row} (h : row ∈ (ofText text).rows) :
    ∃ numbered ∈ numberedLines text, row = Row.ofLine numbered.1 numbered.2 := by
  rw [rows_ofText_eq] at h
  obtain ⟨numbered, hmem, rfl⟩ := List.mem_map.1 h
  exact ⟨numbered, List.mem_of_mem_tail hmem, rfl⟩

/-- A table that was read is faithful. -/
theorem faithful_ofText (text : String) : (ofText text).Faithful where
  heading heading h := by
    cases hlines : numberedLines text with
    | nil =>
      rw [ofText_of_nil hlines] at h
      cases h
    | cons first later =>
      rw [ofText_of_cons hlines] at h
      rw [← Option.some.inj h]
      exact plain_of_mem_numberedLines first (hlines ▸ List.mem_cons_self)
  rows row h := by
    obtain ⟨numbered, hmem, hrow⟩ := rows_ofText h
    have hplain : Text.Plain numbered.2 := plain_of_mem_numberedLines numbered hmem
    rw [hrow]
    cases hnode : Node.ofLine numbered.2 with
    | ok node =>
      rw [Row.ofLine_of_ok hnode]
      exact Node.faithful_of_ofLine hnode hplain
    | error reason =>
      rw [Row.ofLine_of_error hnode]
      exact ⟨hplain, hnode⟩

/-- What the rows of a table that was read say is what their lines say. -/
theorem map_rows_ofText {β : Type} {f : Row → β} {g : String → β}
    (h : ∀ lineNumber line, f (Row.ofLine lineNumber line) = g line) (text : String) :
    (ofText text).rows.map f = ((numberedLines text).map Prod.snd).tail.map g := by
  rw [rows_ofText_eq, List.map_map, ← List.map_tail, List.map_map]
  apply List.map_congr_left
  intro numbered _
  exact h numbered.1 numbered.2

/-- A table that was read is written with the lines that were found. -/
theorem writtenLines_ofText {text : String} (h : numberedLines text ≠ []) :
    (ofText text).writtenLines = (numberedLines text).map Prod.snd := by
  rw [writtenLines, map_rows_ofText Row.toLine_ofLine, List.map_id']
  cases hlines : numberedLines text with
  | nil => exact absurd hlines h
  | cons first later => rw [ofText_of_cons hlines, Option.getD_some, List.map_cons, List.tail_cons]

theorem toText_ofText {text : String} (h : numberedLines text ≠ []) :
    (ofText text).toText = Text.closeLines ((numberedLines text).map Prod.snd) := by
  rw [toText, ← writtenLines, writtenLines_ofText h]

end Table

/-! ### Writing and reading again -/

namespace Node

theorem isBlankText_of_ofLine {line : String} {node : Node} (h : ofLine line = .ok node) :
    Text.isBlankText line = false := by
  by_contra hblank
  rw [Bool.not_eq_false] at hblank
  have hcells : ∀ i, Text.trim ((((Cell.split line.toList).map String.ofList).getD i "").toList) =
      [] := by
    intro i
    apply Text.trim_of_allBlank
    rw [Text.allBlank_iff]
    intro c hc
    rcases getD_split line i with hnil | hcell
    · rw [hnil] at hc
      exact absurd hc List.not_mem_nil
    · exact Text.allBlank_iff.1 hblank c (Cell.mem_of_mem_split hcell hc)
  delta ofLine at h
  dsimp only at h
  rw [hcells] at h
  cases h

theorem plain_encodeRow {node : Node} (h : Text.InRange64 node.number) :
    Text.Plain (Cell.encodeRow node.writtenCells) where
  lineFeed hfeed := by
    rw [Cell.toList_encodeRow] at hfeed
    exact (Cell.oneLine_row _ _ hfeed).1 rfl
  notBlank := isBlankText_of_ofLine (ofLine_encodeRow h)

theorem reread_of_line_none {node : Node} (h : node.line = none) : node.reread = node.readBack := by
  rw [reread, isPristine, h, Option.isSome_none, if_neg Bool.false_ne_true]

theorem reread_of_line_some {node : Node} {line : String} (h : node.line = some line) :
    node.reread = node := by
  rw [reread, isPristine, h, Option.isSome_some, if_pos rfl]

theorem Faithful.plain_toLine {node : Node} (h : node.Faithful) : Text.Plain node.toLine := by
  cases hline : node.line with
  | none =>
    rw [toLine, hline, Option.getD_none]
    exact plain_encodeRow h.regular.number_inRange
  | some line =>
    rw [toLine, hline, Option.getD_some]
    exact h.plain line hline

theorem Faithful.ofLine_toLine {node : Node} (h : node.Faithful) :
    Node.ofLine node.toLine = .ok node.reread := by
  cases hline : node.line with
  | none =>
    rw [reread_of_line_none hline, toLine, hline, Option.getD_none]
    exact ofLine_encodeRow h.regular.number_inRange
  | some line =>
    rw [reread_of_line_some hline, toLine, hline, Option.getD_some]
    exact h.ofLine line hline

end Node

namespace Row

theorem Faithful.plain_toLine {row : Row} (h : row.Faithful) : Text.Plain row.toLine := by
  cases row with
  | node n => exact Node.Faithful.plain_toLine h
  | skipped s => exact h.1

/-- A row is read as what it was, but for a node that was written anew. -/
theorem Faithful.toOption_ofLine_toLine {row : Row} (h : row.Faithful) :
    (Node.ofLine row.toLine).toOption = row.node?.map Node.reread := by
  cases row with
  | node n =>
    rw [toLine, Node.Faithful.ofLine_toLine h]
    rfl
  | skipped s =>
    rw [toLine, h.2]
    rfl

end Row

namespace Table

theorem oneLine_headingLine : Cell.OneLine Column.headingLine.toList := by
  rw [Column.headingLine, String.toList_intercalate]
  decide +kernel

theorem plain_headingLine : Text.Plain Column.headingLine where
  lineFeed hfeed := (oneLine_headingLine _ hfeed).1 rfl
  notBlank := by
    rw [Text.isBlankText, Column.headingLine, String.toList_intercalate]
    decide +kernel

theorem Faithful.plain_of_mem_writtenLines {table : Table} (h : table.Faithful) :
    ∀ line ∈ table.writtenLines, Text.Plain line := by
  intro line hl
  rcases List.mem_cons.1 hl with rfl | hl
  · cases hheading : table.heading with
    | none => exact plain_headingLine
    | some heading => exact h.heading heading hheading
  · obtain ⟨row, hrow, rfl⟩ := List.mem_map.1 hl
    exact (h.rows row hrow).plain_toLine

theorem getElem?_writtenLines {table : Table} {i : Nat} {row : Row}
    (h : table.rows[i]? = some row) : table.writtenLines[i + 1]? = some row.toLine := by
  rw [writtenLines, List.getElem?_cons_succ, List.getElem?_map, h]
  rfl

/-- The rows of a written table are found again one by one, unless a line says nothing or its end
is taken for a line ending. -/
theorem map_rows_ofText_toText {β : Type} {f : Row → β} {g : String → β}
    (h : ∀ lineNumber line, f (Row.ofLine lineNumber line) = g line) {table : Table}
    (hp : ∀ line ∈ table.writtenLines, Text.Plain line) (hr : table.NoReturns) :
    (ofText table.toText).rows.map f = table.rows.map fun row => g row.toLine := by
  have hlines : table.writtenLines.map Text.withoutReturn = table.writtenLines :=
    (Text.map_withoutReturn_eq_self_iff _).2 hr
  rw [map_rows_ofText h, toText, ← writtenLines, map_snd_numberedLines_closeLines hp, hlines,
    writtenLines, List.tail_cons, List.map_map]
  rfl

/-- A faithful table is read again node by node, unless the end of a line is taken for a line
ending. -/
theorem nodes_ofText_toText {table : Table} (h : table.Faithful) (hr : table.NoReturns) :
    (ofText table.toText).nodes = table.nodes.map Node.reread := by
  have hrows : (ofText table.toText).rows.map Row.node? =
      table.rows.map fun row => row.node?.map Node.reread := by
    rw [map_rows_ofText_toText Row.node?_ofLine h.plain_of_mem_writtenLines hr]
    apply List.map_congr_left
    intro row hrow
    exact (h.rows row hrow).toOption_ofLine_toLine
  calc (ofText table.toText).nodes
      = ((ofText table.toText).rows.map Row.node?).filterMap id := by
        rw [List.filterMap_map]
        rfl
    _ = (table.rows.map fun row => row.node?.map Node.reread).filterMap id := by rw [hrows]
    _ = table.nodes.map Node.reread := by
        rw [List.filterMap_map, Table.nodes, List.map_filterMap]
        rfl

/-- Written lines without line feeds can be told apart again. -/
theorem closeLines_inj {a b : List String} (ha : ∀ line ∈ a, '\n' ∉ line.toList)
    (hb : ∀ line ∈ b, '\n' ∉ line.toList) (h : Text.closeLines a = Text.closeLines b) : a = b := by
  have hclosed := congrArg (fun text : String => (Text.closedLines text.toList).1) h
  simp only [Text.closedLines_closeLines ha, Text.closedLines_closeLines hb] at hclosed
  exact List.map_injective_iff.2 (fun _ _ => String.toList_injective) hclosed

/-- Writing a faithful table, reading it and writing it again gives the same text exactly if no
written line ends in a carriage return. -/
theorem toText_ofText_toText_iff {table : Table} (h : table.Faithful) :
    (ofText table.toText).toText = table.toText ↔ table.NoReturns := by
  have hfeed : ∀ line ∈ table.writtenLines, '\n' ∉ line.toList :=
    fun line hl => (h.plain_of_mem_writtenLines line hl).lineFeed
  have hsnd := map_snd_numberedLines_closeLines h.plain_of_mem_writtenLines
  have htext : (ofText table.toText).toText =
      Text.closeLines (table.writtenLines.map Text.withoutReturn) := by
    rw [toText_ofText, toText, ← writtenLines, hsnd]
    intro hnil
    rw [toText, ← writtenLines] at hnil
    rw [hnil] at hsnd
    cases hsnd
  rw [htext, toText, ← writtenLines, NoReturns, ← Text.map_withoutReturn_eq_self_iff]
  constructor
  · apply closeLines_inj _ hfeed
    intro found hfound hmem
    obtain ⟨line, hl, rfl⟩ := List.mem_map.1 hfound
    rw [Text.withoutReturn, String.toList_ofList] at hmem
    exact hfeed line hl (Text.mem_of_mem_dropReturn hmem)
  · intro hlines
    rw [hlines]

end Table

end DialogTable
