import DialogTable.Proofs.Text.Clean
import DialogTable.Proofs.Validation.Idempotence

/-!
# The characters of a fixed text

Validation writes numbers, separators, quotes, the label of a route for errors and, where a table
has none, the heading. Every other character of the fixed text stood in the text that was given
(`mem_toText_fixedTable`). All that validation writes is kept by cleaning, so that fixing a clean
text leaves it clean (`isClean_fixedTable`).
-/

namespace DialogTable.Validation

/-- The characters that validation writes on its own. -/
def IsWriting (c : Char) : Prop :=
  Node.IsMark c ∨ c ∈ errorLabel.toList ∨ c ∈ Column.headingLine.toList ∨ c ∈ [',', '"', ' ', '\n']

/-- The row of a mended node is written with the characters of its line, and little else. -/
theorem mem_encodeRow_mend (policy : Policy) (known : List Int) {line : String} {node : Node}
    (h : Node.ofLine line = .ok node) {c : Char}
    (hc : c ∈ (Cell.encodeRow (mend policy known node).writtenCells).toList) :
    c ∈ line.toList ∨ IsWriting c := by
  rw [Cell.toList_encodeRow] at hc
  rcases Cell.mem_row hc with ⟨cell, hcell, hc⟩ | hc
  · obtain ⟨text, htext, rfl⟩ := List.mem_map.1 hcell
    rcases List.mem_append.1 htext with htext | htext
    · obtain ⟨column, -, rfl⟩ := List.mem_map.1 htext
      rcases mem_columnText_mend policy known node hc with hc | hmark | hlabel
      · exact (Node.mem_columnText_ofLine h hc).imp_right .inl
      · exact .inr (.inl hmark)
      · exact .inr (.inr (.inl hlabel))
    · rw [cells_mend] at htext
      exact .inl (Node.mem_line_of_mem_cells h (List.mem_of_mem_drop htext) hc)
  · have hsub : [',', '"', ' '] ⊆ [',', '"', ' ', '\n'] := by decide
    exact .inr (.inr (.inr (.inr (hsub hc))))

section FixedTable

variable (policy : Policy) {text : String}

theorem mem_writtenLines_fixedTable {line : String}
    (hline : line ∈ (fixedTable policy text).writtenLines) {c : Char} (hc : c ∈ line.toList) :
    c ∈ text.toList ∨ IsWriting c := by
  have hread : ∀ line ∈ (Table.ofText text).writtenLines, ∀ c ∈ line.toList,
      c ∈ text.toList ∨ IsWriting c := by
    intro line hline c hc
    rcases Table.mem_lines_of_mem_writtenLines_ofText hline with rfl | ⟨hmem, -⟩
    · exact .inr (.inr (.inr (.inl hc)))
    · exact .inl (Text.ne_lineFeed_of_mem_lines hmem hc).2
  rcases (edits_fixedTable policy text).mem_writtenLines hline with hold | ⟨node, hnode, -, rfl⟩
  · exact hread line hold c hc
  · rw [nodes_fixedTable] at hnode
    obtain ⟨old, hold, rfl⟩ := List.mem_map.1 hnode
    obtain ⟨line, hline, hmem⟩ := Table.ofLine_of_mem_nodes_ofText hold
    rcases mem_encodeRow_mend policy _ hline hc with hc | hwriting
    · exact hread line hmem c hc
    · exact .inr hwriting

/-- A character of the fixed text was there before, or is one that validation writes. -/
theorem mem_toText_fixedTable {c : Char} (h : c ∈ (fixedTable policy text).toText.toList) :
    c ∈ text.toList ∨ IsWriting c := by
  rw [Table.toText, Text.toList_closeLines, List.mem_flatMap] at h
  obtain ⟨line, hline, hc⟩ := h
  rcases List.mem_append.1 hc with hc | hc
  · exact mem_writtenLines_fixedTable policy hline hc
  · rw [List.mem_singleton.1 hc]
    exact .inr (.inr (.inr (.inr (by decide))))

end FixedTable

theorem isKept_of_isWriting {c : Char} (h : IsWriting c) : Text.IsKept c := by
  rcases h with (h | h) | h | h | h
  · exact Text.isKept_of_isNumeral h
  · have hmarks : Text.IsClean ['D', 'A', listSeparator, routeSeparator] := by decide
    exact hmarks c h
  · have hlabel : Text.IsClean errorLabel.toList := by decide +kernel
    exact hlabel c h
  · have hheading : Text.IsClean Column.headingLine.toList := by
      rw [Column.headingLine, String.toList_intercalate]
      decide +kernel
    exact hheading c h
  · have hfixed : Text.IsClean [',', '"', ' ', '\n'] := by decide
    exact hfixed c h

/-- Fixing a clean text leaves it clean. -/
theorem isClean_fixedTable (policy : Policy) {text : String} (h : Text.IsClean text.toList) :
    Text.IsClean (fixedTable policy text).toText.toList := by
  intro c hc
  rcases mem_toText_fixedTable policy hc with hc | hwriting
  · exact h c hc
  · exact isKept_of_isWriting hwriting

end DialogTable.Validation
