import DialogTable.Proofs.Table.Rewriting

/-!
# Tables that are written as they were read

A table that was read and not edited is written with the lines of its text that say something. Line
endings become line feeds, blank lines are gone, and nothing else changes. The main statement
`toText_ofText_of_notBlank` says so, counts the rows and tells the place of each unread line. It
also says that reading the written text finds the same nodes, and refuses the same lines for the
same reasons, unless a line ends in a carriage return of its own.
-/

namespace DialogTable

/-- An unread line in its place, counted from one. It says something, another line that says
something stands before it, and it is refused for the reason given. -/
def SkippedLine.StandsIn (unread : SkippedLine) (lines : List (List Char)) : Prop :=
  ∃ i, unread.lineNumber = i + 1 ∧ lines[i]? = some unread.line.toList ∧
    Text.isBlankText unread.line = false ∧
    (∃ j < i, ∃ heading, lines[j]? = some heading ∧ Text.allBlank heading = false) ∧
    Node.ofLine unread.line = .error unread.reason

/-! ### Rows that are no nodes -/

namespace Row

/-- Why a row is no node. -/
def reason? (row : Row) : Option SkipReason :=
  row.skipped?.map (·.reason)

theorem skipped?_ofLine_eq_some_iff {lineNumber : Nat} {line : String} {unread : SkippedLine} :
    (ofLine lineNumber line).skipped? = some unread ↔
      lineNumber = unread.lineNumber ∧ line = unread.line ∧
        Node.ofLine unread.line = .error unread.reason := by
  cases h : Node.ofLine line with
  | ok node =>
    rw [ofLine_of_ok h]
    constructor
    · exact nofun
    · rintro ⟨-, rfl, herror⟩
      rw [h] at herror
      cases herror
  | error reason =>
    rw [ofLine_of_error h, skipped?, Option.some.injEq]
    constructor
    · rintro rfl
      exact ⟨rfl, rfl, h⟩
    · rintro ⟨rfl, rfl, herror⟩
      rw [h] at herror
      rw [Except.error.inj herror]

/-- Why a line is refused depends on the line only. -/
theorem reason?_ofLine (lineNumber : Nat) (line : String) :
    (ofLine lineNumber line).reason? =
      match Node.ofLine line with
      | .ok _ => none
      | .error reason => some reason := by
  split
  · next h =>
    rw [ofLine_of_ok h]
    rfl
  · next h =>
    rw [ofLine_of_error h]
    rfl

end Row

/-! ### Numbered lines -/

/-- In ascending order all members but the first are behind another one. -/
theorem mem_tail_iff_of_pairwise {α : Type} {l : List α} {f : α → Nat}
    (h : l.Pairwise fun a b => f a < f b) {a : α} :
    a ∈ l.tail ↔ a ∈ l ∧ ∃ b ∈ l, f b < f a := by
  cases l with
  | nil => simp
  | cons first later =>
    obtain ⟨hfirst, hlater⟩ := List.pairwise_cons.1 h
    rw [List.tail_cons]
    constructor
    · intro ha
      exact ⟨List.mem_cons_of_mem first ha, first, List.mem_cons_self, hfirst a ha⟩
    · rintro ⟨ha, b, hb, hlt⟩
      rcases List.mem_cons.1 ha with rfl | ha
      · rcases List.mem_cons.1 hb with rfl | hb
        · omega
        · have := hfirst b hb
          omega
      · exact ha

namespace Table

variable {text : String}

theorem mem_numberedLines {numbered : Nat × String} :
    numbered ∈ numberedLines text ↔
      ∃ i, numbered.1 = i + 1 ∧ (Text.lines text.toList)[i]? = some numbered.2.toList ∧
        Text.isBlankText numbered.2 = false := by
  rw [numberedLines, List.mem_filterMap]
  constructor
  · rintro ⟨⟨line, lineNumber⟩, hmem, hsome⟩
    obtain ⟨hle, hget⟩ := List.mk_mem_zipIdx_iff_le_and_getElem?_sub.1 hmem
    dsimp only at hsome
    split at hsome
    · cases hsome
    · next hblank =>
      obtain rfl := Option.some.inj hsome
      refine ⟨lineNumber - 1, by omega, ?_, ?_⟩
      · rw [hget, String.toList_ofList]
      · rw [Text.isBlankText, String.toList_ofList]
        simpa using hblank
  · rintro ⟨i, hnumber, hget, hblank⟩
    refine ⟨(numbered.2.toList, numbered.1), ?_, ?_⟩
    · rw [List.mk_mem_zipIdx_iff_le_and_getElem?_sub, hnumber, Nat.add_sub_cancel]
      exact ⟨by omega, hget⟩
    · have hblank : Text.allBlank numbered.2.toList = false := hblank
      simp [hblank]

theorem pairwise_numberedLines (text : String) :
    (numberedLines text).Pairwise fun a b => a.1 < b.1 := by
  have hnumbers : ((Text.lines text.toList).zipIdx 1).Pairwise fun a b => a.2 < b.2 := by
    have hrange : (List.range' 1 (Text.lines text.toList).length).Pairwise (· < ·) :=
      List.pairwise_lt_range'
    rwa [← List.zipIdx_map_snd, List.pairwise_map] at hrange
  refine hnumbers.filterMap _ ?_
  rintro ⟨line, lineNumber⟩ ⟨other, otherNumber⟩ hlt
  intro numbered hsome otherNumbered hotherSome
  dsimp only at hsome hotherSome
  split at hsome
  · cases hsome
  · split at hotherSome
    · cases hotherSome
    · rw [← Option.some.inj hsome, ← Option.some.inj hotherSome]
      exact hlt

theorem length_numberedLines (text : String) :
    (numberedLines text).length =
      ((Text.lines text.toList).filter fun line => !Text.allBlank line).length := by
  rw [← List.length_map (f := Prod.snd), map_snd_numberedLines, List.length_map]

/-! ### Unread lines -/

theorem mem_skipped_ofText {unread : SkippedLine} :
    unread ∈ (ofText text).skipped ↔ unread.StandsIn (Text.lines text.toList) := by
  rw [Table.skipped, rows_ofText_eq, List.filterMap_map, List.mem_filterMap]
  constructor
  · rintro ⟨numbered, hmem, hsome⟩
    rw [mem_tail_iff_of_pairwise (pairwise_numberedLines text)] at hmem
    obtain ⟨hmem, earlier, hearlier, hlt⟩ := hmem
    obtain ⟨hnumber, hline, herror⟩ := Row.skipped?_ofLine_eq_some_iff.1 hsome
    obtain ⟨i, hi, hget, hblank⟩ := mem_numberedLines.1 hmem
    obtain ⟨j, hj, hheading, hfull⟩ := mem_numberedLines.1 hearlier
    rw [hnumber] at hi
    rw [hline] at hget hblank
    exact ⟨i, hi, hget, hblank, ⟨j, by omega, _, hheading, hfull⟩, herror⟩
  · rintro ⟨i, hi, hget, hblank, ⟨j, hlt, heading, hheading, hfull⟩, herror⟩
    have hnumbered : (unread.lineNumber, unread.line) ∈ numberedLines text :=
      mem_numberedLines.2 ⟨i, hi, hget, hblank⟩
    have hearlier : (j + 1, String.ofList heading) ∈ numberedLines text := by
      refine mem_numberedLines.2 ⟨j, rfl, ?_, ?_⟩
      · rw [hheading, String.toList_ofList]
      · rw [Text.isBlankText, String.toList_ofList, hfull]
    refine ⟨(unread.lineNumber, unread.line), ?_,
      Row.skipped?_ofLine_eq_some_iff.2 ⟨rfl, rfl, herror⟩⟩
    rw [mem_tail_iff_of_pairwise (pairwise_numberedLines text)]
    refine ⟨hnumbered, _, hearlier, ?_⟩
    show j + 1 < unread.lineNumber
    omega

theorem map_reason_skipped (table : Table) :
    table.skipped.map (·.reason) = (table.rows.map Row.reason?).filterMap id := by
  rw [Table.skipped, List.map_filterMap, List.filterMap_map]
  rfl

theorem pairwise_skipped_ofText (text : String) :
    (ofText text).skipped.Pairwise fun a b => a.lineNumber < b.lineNumber := by
  rw [Table.skipped, rows_ofText_eq, List.filterMap_map]
  refine (pairwise_numberedLines text).tail.filterMap _ ?_
  intro numbered other hlt unread hsome otherUnread hotherSome
  obtain ⟨hnumber, -⟩ := Row.skipped?_ofLine_eq_some_iff.1 hsome
  obtain ⟨hother, -⟩ := Row.skipped?_ofLine_eq_some_iff.1 hotherSome
  omega

/-! ### Reading the written text -/

/-- What depends on the lines of the rows only is found again row by row. -/
theorem map_rows_reread {β : Type} {f : Row → β} {g : String → β}
    (h : ∀ lineNumber line, f (Row.ofLine lineNumber line) = g line)
    (hreturns : (ofText text).NoReturns) :
    (ofText (ofText text).toText).rows.map f = (ofText text).rows.map f := by
  rw [map_rows_ofText_toText h (faithful_ofText text).plain_of_mem_writtenLines hreturns]
  apply List.map_congr_left
  intro row hrow
  obtain ⟨numbered, -, heq⟩ := rows_ofText hrow
  rw [heq, Row.toLine_ofLine, h]

theorem nodes_reread (hreturns : (ofText text).NoReturns) :
    (ofText (ofText text).toText).nodes = (ofText text).nodes := by
  have hrows := congrArg (List.filterMap id) (map_rows_reread Row.node?_ofLine hreturns)
  rwa [List.filterMap_map, List.filterMap_map] at hrows

theorem reasons_reread (hreturns : (ofText text).NoReturns) :
    (ofText (ofText text).toText).skipped.map (·.reason) =
      (ofText text).skipped.map (·.reason) := by
  rw [map_reason_skipped, map_rows_reread Row.reason?_ofLine hreturns, ← map_reason_skipped]

/-! ### Untouched tables -/

/-- **An untouched table is written as it was read.** The written text is the lines of the text that
say something, each closed by a line feed. One of them is the heading, and each other one is a node
or an unread line; the unread ones come in order, each numbered by its place in the text. If no such
line ends in a carriage return of its own, the written text is read as the same nodes and the same
refusals, and is written as it is. -/
theorem toText_ofText_of_notBlank
    (hsome : ∃ line ∈ Text.lines text.toList, Text.allBlank line = false) :
    let table := ofText text
    let lines := Text.lines text.toList
    let said := lines.filter fun line => !Text.allBlank line
    (∀ found, Text.HasLines text.toList found ↔ found = lines) ∧
      table.toText.toList = said.flatMap (· ++ ['\n']) ∧
      table.nodes.length + table.skipped.length + 1 = said.length ∧
      (∀ unread, unread ∈ table.skipped ↔ unread.StandsIn lines) ∧
      (table.skipped.map (·.lineNumber)).Pairwise (· < ·) ∧
      ((∀ line ∈ said, line.getLast? ≠ some '\r') →
        (ofText table.toText).nodes = table.nodes ∧
          (ofText table.toText).skipped.map (·.reason) = table.skipped.map (·.reason) ∧
          (ofText table.toText).toText = table.toText) := by
  intro table lines said
  have hlength : (numberedLines text).length = said.length := length_numberedLines text
  have hne : numberedLines text ≠ [] := by
    obtain ⟨line, hline, hfull⟩ := hsome
    have hmem : line ∈ said := List.mem_filter.2 ⟨hline, by rw [hfull, Bool.not_false]⟩
    rw [← List.length_pos_iff, hlength]
    exact List.length_pos_of_mem hmem
  refine ⟨fun _ => Text.hasLines_iff, ?_, ?_, fun _ => mem_skipped_ofText, ?_, fun hreturns => ?_⟩
  · rw [toText_ofText hne, Text.toList_closeLines, map_snd_numberedLines, List.flatMap_map]
    simp only [String.toList_ofList]
    rfl
  · have hpos := List.length_pos_iff.2 hne
    rw [← length_rows, rows_ofText_eq, List.length_map, List.length_tail, ← hlength]
    omega
  · rw [List.pairwise_map]
    exact pairwise_skipped_ofText text
  · have hreturns : table.NoReturns := by
      refine noReturns_ofText_of_notBlank fun line hline hfull => hreturns line ?_
      exact List.mem_filter.2 ⟨hline, by rw [hfull, Bool.not_false]⟩
    exact ⟨nodes_reread hreturns, reasons_reread hreturns,
      (toText_ofText_toText_iff (faithful_ofText text)).2 hreturns⟩

/-- Both line endings, blank lines, an unread line, and a last line that nothing closes. -/
theorem toText_ofText_of_both_endings :
    let text := "h\r\n\u2003\nx,D\r\n1,D,a\n\n2,A,b"
    let table := ofText text
    (∃ line ∈ Text.lines text.toList, Text.allBlank line = false) ∧
      table.toText.toList = "h\nx,D\n1,D,a\n2,A,b\n".toList ∧
      table.nodes.length + table.skipped.length + 1 = 4 ∧
      { lineNumber := 3, line := "x,D", reason := .invalidNumber "x" } ∈ table.skipped ∧
      (ofText table.toText).nodes = table.nodes ∧
      (ofText table.toText).skipped.map (·.reason) = table.skipped.map (·.reason) ∧
      (ofText table.toText).toText = table.toText := by
  intro text table
  have hlines : Text.lines text.toList = ["h".toList, "\u2003".toList, "x,D".toList,
      "1,D,a".toList, [], "2,A,b".toList] := by decide +kernel
  have hsaid : (Text.lines text.toList).filter (fun line => !Text.allBlank line) =
      ["h".toList, "x,D".toList, "1,D,a".toList, "2,A,b".toList] := by
    rw [hlines]
    decide +kernel
  have hsome : ∃ line ∈ Text.lines text.toList, Text.allBlank line = false :=
    ⟨"h".toList, by rw [hlines]; exact List.mem_cons_self, by decide⟩
  have hall := toText_ofText_of_notBlank hsome
  dsimp only at hall
  rw [hsaid] at hall
  obtain ⟨-, htext, hcount, hskipped, -, hagain⟩ := hall
  refine ⟨hsome, htext.trans (by decide), hcount, ?_, hagain (by decide)⟩
  refine (hskipped _).2 ⟨2, rfl, by rw [hlines]; rfl, by decide +kernel, ?_, by decide +kernel⟩
  exact ⟨0, by decide, "h".toList, by rw [hlines]; rfl, by decide⟩

end Table

end DialogTable
