import DialogTable.Proofs.Cell.Row
import DialogTable.Proofs.Node.Routes

/-!
# Nodes that are written anew

The row of an edited node is written from its typed fields and the raw texts of the other columns.
`readBack` is what reading makes of that row. Its number and kind are always those of the node; the
main statement `sameData_readBack_iff` says exactly when nothing else is lost either: when the node
is `Rewritable`, or when cells behind the last column make up for a misread routing table
(`Respelled`).
-/

namespace DialogTable

namespace Column

theorem index_lt (column : Column) : column.index < 26 := by
  cases column <;> decide

theorem index_inj {a b : Column} : a.index = b.index ↔ a = b := by
  constructor
  · intro h
    have hget := getElem?_all_index a
    rw [h, getElem?_all_index] at hget
    exact (Option.some.inj hget).symm
  · exact congrArg index

theorem map_index_all : all.map index = List.range 26 := by
  decide

theorem exists_index_eq {i : Nat} (h : i < 26) : ∃ column : Column, column.index = i := by
  have hmem : i ∈ all.map index := by
    rw [map_index_all, List.mem_range]
    exact h
  obtain ⟨column, -, hindex⟩ := List.mem_map.1 hmem
  exact ⟨column, hindex⟩

instance (p : Column → Prop) [DecidablePred p] : Decidable (∀ column, p column) :=
  have := List.decidableBAll p all
  decidable_of_iff (∀ column ∈ all, p column)
    ⟨fun h column => h column column.mem_all, fun h column _ => h column⟩

end Column

namespace Node

/-- Nodes with the same typed fields and the same texts in the columns that are only carried
along. -/
structure SameData (a b : Node) : Prop where
  number : a.number = b.number
  kind : a.kind = b.kind
  name : a.name = b.name
  message : a.message = b.message
  richContentType : a.richContentType = b.richContentType
  richContent : a.richContent = b.richContent
  nextNodes : a.nextNodes = b.nextNodes
  command : a.command = b.command
  routes : a.routes = b.routes
  cell : ∀ column, column ∉ Column.typed → a.cell column = b.cell column

/-- What is read from the newly written row of a node. -/
def readBack (node : Node) : Node :=
  ofCells node.number node.kind
    ((Cell.split (Cell.encodeRow node.writtenCells).toList).map String.ofList)
    (Cell.encodeRow node.writtenCells)

/-- The text of a column can be written so that it reads back. -/
def SoundAt (node : Node) (column : Column) : Prop :=
  Cell.SoundAt (node.writtenCells.map String.toList) column.index

/-- The texts of all columns can be written so that they read back. -/
def Rewritable (node : Node) : Prop :=
  ∀ column, node.SoundAt column

/-- The routing table is misread, and cells behind the last column make up for it: they spell the
same routes again, and fill the columns behind it. -/
structure Respelled (node : Node) : Prop where
  long : 26 < node.cells.length
  before : ∀ column : Column, column.index < Column.whatNext.index → node.SoundAt column
  misread : ¬ node.SoundAt .whatNext
  routes : Route.readTable (node.readBack.cell .whatNext).toList = node.routes
  behind : ∀ column : Column, Column.whatNext.index < column.index →
    node.readBack.cell column = node.columnText column

/-! ### The cells of a row -/

theorem getElem?_writtenCells (node : Node) (column : Column) :
    node.writtenCells[column.index]? = some (node.columnText column) := by
  rw [writtenCells, List.getElem?_append_left, List.getElem?_map, Column.getElem?_all_index]
  · rfl
  · rw [List.length_map]
    exact column.index_lt

/-- The cell of a column as it is found in the written row. -/
theorem cell_readBack (node : Node) (column : Column) :
    node.readBack.cell column = String.ofList
      ((Cell.split (Cell.row (node.writtenCells.map String.toList)))[column.index]?.getD []) := by
  rw [readBack, cell_ofCells, Cell.toList_encodeRow, List.getD_eq_getElem?_getD, List.getElem?_map]
  cases (Cell.split (Cell.row (node.writtenCells.map String.toList)))[column.index]? <;> rfl

theorem soundAt_iff (node : Node) (column : Column) :
    node.SoundAt column ↔
      Cell.Guardable (node.columnText column).toList ∧
        (column.index + 1 < node.writtenCells.length →
          Cell.oddQuotes (node.columnText column).toList = false) := by
  rw [SoundAt, Cell.SoundAt, List.getElem?_map, getElem?_writtenCells, List.length_map]
  simp

instance (node : Node) (column : Column) : Decidable (node.SoundAt column) :=
  decidable_of_iff' _ (soundAt_iff node column)

instance (node : Node) : Decidable node.OneLine :=
  inferInstanceAs (Decidable (∀ column, Cell.OneLine (node.columnText column).toList))

instance (node : Node) : Decidable node.Rewritable :=
  inferInstanceAs (Decidable (∀ column, node.SoundAt column))

theorem soundAt_of_not_mem {node : Node} {column : Column}
    (hc : ',' ∉ (node.columnText column).toList) (hq : '"' ∉ (node.columnText column).toList) :
    node.SoundAt column := by
  rw [soundAt_iff]
  exact ⟨.inr (Cell.bare_of_not_mem hc hq), fun _ => Cell.oddQuotes_of_not_mem hq⟩

/-- Numbers and kinds have neither commas nor quotes. -/
theorem soundAt_number (node : Node) : node.SoundAt .number :=
  soundAt_of_not_mem (Text.not_mem_toString (by decide) node.number)
    (Text.not_mem_toString (by decide) node.number)

theorem soundAt_kind (node : Node) : node.SoundAt .kind := by
  have hletter : ∀ kind : NodeKind, ',' ∉ kind.letter.toList ∧ '"' ∉ kind.letter.toList := by
    intro kind
    cases kind <;> decide
  exact soundAt_of_not_mem (hletter node.kind).1 (hletter node.kind).2

theorem soundAt_nextNodes (node : Node) : node.SoundAt .nextNodes := by
  apply soundAt_of_not_mem <;> intro hmem <;>
    exact absurd (isMark_of_mem_nextNodes_text hmem) (by decide)

/-- The columns before a position are all those whose cells stand before it. -/
theorem soundAt_before {node : Node} {column : Column}
    (h : ∀ other : Column, other.index < column.index → node.SoundAt other) :
    ∀ j < column.index, Cell.SoundAt (node.writtenCells.map String.toList) j := by
  intro j hj
  obtain ⟨other, rfl⟩ := Column.exists_index_eq (hj.trans column.index_lt)
  exact h other hj

/-- Up to a sound column the texts read back, line breaks being spaces. -/
theorem cell_readBack_of_soundAt {node : Node} {column : Column}
    (h : ∀ other : Column, other.index ≤ column.index → node.SoundAt other) :
    node.readBack.cell column = String.ofList (Cell.flatten (node.columnText column).toList) := by
  have hsound : ∀ j ≤ column.index, Cell.SoundAt (node.writtenCells.map String.toList) j := by
    intro j hj
    rcases Nat.lt_or_eq_of_le hj with hlt | rfl
    · exact soundAt_before (fun other ho => h other (Nat.le_of_lt ho)) j hlt
    · exact h column le_rfl
  rw [cell_readBack, Cell.getElem?_split_row hsound (by
    rw [List.getElem?_map, getElem?_writtenCells, Option.map_some]), Option.getD_some]

/-- The first column that is not sound is misread. -/
theorem misread_of_not_soundAt {node : Node} {column : Column}
    (h : ∀ other : Column, other.index < column.index → node.SoundAt other)
    (hn : ¬ node.SoundAt column) :
    Cell.Misread (node.columnText column).toList (node.readBack.cell column).toList := by
  obtain ⟨cell, found, hcell, hfound, hmis⟩ :=
    Cell.getElem?_split_row_of_not_soundAt (soundAt_before h) hn
  rw [List.getElem?_map, getElem?_writtenCells, Option.map_some, Option.some.injEq] at hcell
  rw [cell_readBack, hfound, Option.getD_some, String.toList_ofList, hcell]
  exact hmis

/-! ### The fields of the node that is read -/

theorem fromCells_readBack (node : Node) : node.readBack.FromCells :=
  fromCells_ofCells _ _ _ _

/-- A misread text that may be missing counts as present, and is another one. -/
theorem unlessBlank_ne_of_misread {text : Option String} {found : String}
    (hflat : Cell.flatten (text.getD "").toList = (text.getD "").toList)
    (h : Cell.Misread (text.getD "").toList found.toList) : Text.unlessBlank found ≠ text := by
  intro heq
  rw [Text.unlessBlank] at heq
  cases text with
  | none =>
    have hblank : Text.isBlankText found = false := h.not_allBlank
    rw [hblank] at heq
    cases heq
  | some t =>
    split at heq
    · cases heq
    · rw [Option.some.inj heq] at h
      exact h.ne hflat.symm

/-- A misread command is another one. -/
theorem map_trimmed_ne_of_misread {command : Option String} {found : String}
    (hsome : Text.NotBlank command)
    (htrim : ∀ text, command = some text → Text.trimmed text = text)
    (hflat : Cell.flatten (command.getD "").toList = (command.getD "").toList)
    (h : Cell.Misread (command.getD "").toList found.toList) :
    (Text.unlessBlank found).map Text.trimmed ≠ command := by
  intro heq
  rw [Text.unlessBlank] at heq
  cases command with
  | none =>
    have hblank : Text.isBlankText found = false := h.not_allBlank
    rw [hblank] at heq
    cases heq
  | some t =>
    split at heq
    · cases heq
    · have ht : Text.trim t.toList = t.toList := by
        rw [← Text.toList_trimmed, htrim t rfl]
      have hne : t.toList ≠ [] := by
        intro hnil
        have hs := hsome t rfl
        rw [Text.isBlankText, hnil] at hs
        cases hs
      have heq : Text.trimmed found = t := Option.some.inj heq
      apply h.trim_ne hflat ht hne
      rw [← Text.toList_trimmed, heq, Option.getD_some]

/-- A misread routing table is another one, unless it has swallowed more than commas and quotes. -/
theorem readTable_ne_of_misread {node : Node} (hr : node.Regular) (hne : node.routes ≠ [])
    {found : List Char}
    (hflat : Cell.OneLine (node.columnText .whatNext).toList)
    (h : Cell.Misread (node.columnText .whatNext).toList found)
    (hletters : Cell.letters found ≤ Cell.letters (node.columnText .whatNext).toList) :
    Route.readTable found ≠ node.routes := by
  intro heq
  rcases h with hlt | ⟨c, more, rfl, -⟩
  · have hle := Route.length_join_le found
    rw [heq] at hle
    exact absurd (hlt.trans_le hle) (Nat.lt_irrefl _)
  · rw [Cell.flatten_eq_self hflat] at heq hletters
    rw [Cell.letters_append] at hletters
    have hmore : ∀ d ∈ c :: more, d = ',' ∨ d = '"' := Cell.letters_eq_zero_iff.1 (by omega)
    exact Route.readTable_append_ne hne hr.routes_regular (List.cons_ne_nil c more) hmore heq

theorem not_mem_typed_of_whatNext_lt {column : Column} (h : Column.whatNext.index < column.index) :
    column ∉ Column.typed := by
  cases column <;> first | exact absurd h (by decide) | decide

/-- In a row without cells behind the last column, a routing table takes no text from the columns
behind it that they do not miss. -/
theorem letters_cell_whatNext_le {node : Node} (hlen : node.cells.length ≤ 26)
    (hbefore : ∀ other : Column, other.index < Column.whatNext.index → node.SoundAt other)
    (h : node.SameData node.readBack) :
    Cell.letters (node.readBack.cell .whatNext).toList ≤
      Cell.letters (node.columnText .whatNext).toList := by
  have hcell : ∀ column : Column, (node.writtenCells.map String.toList)[column.index]? =
      some (node.columnText column).toList := by
    intro column
    rw [List.getElem?_map, getElem?_writtenCells, Option.map_some]
  have hlater : ∀ j, Column.whatNext.index < j → j < (node.writtenCells.map String.toList).length →
      (Cell.split (Cell.row (node.writtenCells.map String.toList))).getD j [] =
        (node.writtenCells.map String.toList).getD j [] := by
    intro j hj hlt
    rw [List.length_map, length_writtenCells, Nat.sub_eq_zero_of_le hlen, Nat.add_zero] at hlt
    obtain ⟨column, rfl⟩ := Column.exists_index_eq hlt
    have hty : column ∉ Column.typed := not_mem_typed_of_whatNext_lt hj
    have hsame : node.readBack.cell column = node.columnText column := by
      rw [columnText_of_not_typed node hty, h.cell column hty]
    rw [List.getD_eq_getElem?_getD, List.getD_eq_getElem?_getD, hcell, Option.getD_some, ← hsame,
      cell_readBack, String.toList_ofList]
  rw [cell_readBack, String.toList_ofList]
  cases hfound : (Cell.split (Cell.row (node.writtenCells.map String.toList)))[Column.whatNext.index]? with
  | none => exact Nat.zero_le _
  | some found => exact Cell.letters_le (soundAt_before hbefore) hlater (hcell .whatNext) hfound

/-- Where the nodes agree no column is misread, but for the routing table of a row with cells behind
the last column. -/
theorem not_misread_of_sameData {node : Node} (hr : node.Regular) (ho : node.OneLine)
    (h : node.SameData node.readBack) {column : Column}
    (hshort : column = .whatNext → node.cells.length ≤ 26)
    (hbefore : ∀ other : Column, other.index < column.index → node.SoundAt other)
    (hn : ¬ node.SoundAt column) :
    ¬ Cell.Misread (node.columnText column).toList (node.readBack.cell column).toList := by
  intro hmis
  have hflat : Cell.flatten (node.columnText column).toList = (node.columnText column).toList :=
    Cell.flatten_eq_self (ho column)
  have htext : node.readBack.cell column ≠ node.columnText column := by
    intro heq
    rw [heq] at hmis
    exact hmis.ne hflat.symm
  by_cases hty : column ∈ Column.typed
  · simp only [Column.typed, List.mem_cons, List.not_mem_nil, or_false] at hty
    rcases hty with rfl | rfl | rfl | rfl | rfl | rfl | rfl | rfl | rfl
    · exact hn (soundAt_number node)
    · exact hn (soundAt_kind node)
    · exact htext (by rw [← (fromCells_readBack node).name, ← h.name]; rfl)
    · exact hn (soundAt_nextNodes node)
    · exact unlessBlank_ne_of_misread hflat hmis
        (by rw [← (fromCells_readBack node).message, h.message])
    · exact unlessBlank_ne_of_misread hflat hmis
        (by rw [← (fromCells_readBack node).richContentType, h.richContentType])
    · exact unlessBlank_ne_of_misread hflat hmis
        (by rw [← (fromCells_readBack node).richContent, h.richContent])
    · exact map_trimmed_ne_of_misread hr.command_notBlank hr.command_trimmed hflat hmis
        (by rw [← (fromCells_readBack node).command, h.command])
    · have hne : node.routes ≠ [] := by
        intro hnil
        have hempty : node.columnText .whatNext = "" := by
          rw [columnText, hnil]
          rfl
        apply hn
        apply soundAt_of_not_mem <;> rw [hempty] <;> exact List.not_mem_nil
      apply readTable_ne_of_misread hr hne (ho .whatNext) hmis
        (letters_cell_whatNext_le (hshort rfl) hbefore h)
      rw [← (fromCells_readBack node).routes, h.routes]
  · rw [columnText_of_not_typed node hty] at htext
    exact htext (h.cell column hty).symm

/-! ### Reading the row -/

theorem eq_number_or_kind {column : Column} (h : column.index ≤ 1) :
    column = .number ∨ column = .kind := by
  cases column <;> first | exact .inl rfl | exact .inr rfl | exact absurd h (by decide)

/-- The first two columns are never spoiled. -/
theorem cell_readBack_of_index_le {node : Node} {column : Column} (h : column.index ≤ 1) :
    node.readBack.cell column = String.ofList (Cell.flatten (node.columnText column).toList) := by
  apply cell_readBack_of_soundAt
  intro other ho
  rcases eq_number_or_kind (ho.trans h) with rfl | rfl
  · exact soundAt_number node
  · exact soundAt_kind node

theorem cell_number_readBack (node : Node) : node.readBack.cell .number = toString node.number := by
  rw [cell_readBack_of_index_le (by decide), columnText, Cell.flatten_eq_self, String.ofList_toList]
  intro c hc
  have hnum : Text.IsNumeral c := Text.isNumeral_of_mem_toString hc
  constructor <;> rintro rfl <;> exact absurd hnum (by decide)

theorem cell_kind_readBack (node : Node) : node.readBack.cell .kind = node.kind.letter := by
  rw [cell_readBack_of_index_le (by decide), columnText]
  cases node.kind <;> rfl

theorem getD_split_encodeRow (node : Node) (column : Column) :
    ((Cell.split (Cell.encodeRow node.writtenCells).toList).map String.ofList).getD column.index ""
      = node.readBack.cell column := by
  rw [readBack, cell_ofCells]

/-- The newly written row of a node is read as a node again, with the same number and kind. -/
theorem ofLine_encodeRow {node : Node} (h : Text.InRange64 node.number) :
    ofLine (Cell.encodeRow node.writtenCells) = .ok node.readBack := by
  have hkind : NodeKind.read node.kind.letter.toList = some node.kind := by
    cases node.kind <;> decide
  delta ofLine
  simp only [getD_split_encodeRow, cell_number_readBack, cell_kind_readBack,
    Text.readNumber_trim_toString h, hkind]
  rfl

theorem number_readBack (node : Node) : node.readBack.number = node.number := by
  rw [readBack, ofCells]

theorem kind_readBack (node : Node) : node.readBack.kind = node.kind := by
  rw [readBack, ofCells]

theorem readBack_touch (node : Node) : node.touch.readBack = node.readBack := by
  rw [readBack, writtenCells_touch, readBack, touch]

/-- Without line breaks the columns are read as they are written, as long as all are sound. -/
theorem cell_readBack_of_rewritable {node : Node} (ho : node.OneLine) (h : node.Rewritable)
    (column : Column) : node.readBack.cell column = node.columnText column := by
  rw [cell_readBack_of_soundAt fun other _ => h other, Cell.flatten_eq_self (ho column),
    String.ofList_toList]

/-- The data are kept as soon as the columns read back as they are written, and of the routing table
at least the routes. -/
theorem sameData_of_cells {node : Node} (hr : node.Regular)
    (hcells : ∀ column, column ≠ .whatNext → node.readBack.cell column = node.columnText column)
    (hroutes : Route.readTable (node.readBack.cell .whatNext).toList = node.routes) :
    node.SameData node.readBack where
  number := (number_readBack node).symm
  kind := (kind_readBack node).symm
  name := by
    rw [(fromCells_readBack node).name, hcells .name (by decide)]
    rfl
  message := by
    rw [(fromCells_readBack node).message, hcells .message (by decide)]
    exact (Text.unlessBlank_getD hr.message_notBlank).symm
  richContentType := by
    rw [(fromCells_readBack node).richContentType, hcells .richContentType (by decide)]
    exact (Text.unlessBlank_getD hr.richContentType_notBlank).symm
  richContent := by
    rw [(fromCells_readBack node).richContent, hcells .richContent (by decide)]
    exact (Text.unlessBlank_getD hr.richContent_notBlank).symm
  nextNodes := by
    rw [(fromCells_readBack node).nextNodes, hcells .nextNodes (by decide)]
    exact (readNextNodes_join hr.nextNodes_inRange).symm
  command := by
    rw [(fromCells_readBack node).command, hcells .command (by decide), columnText,
      Text.unlessBlank_getD hr.command_notBlank]
    cases hc : node.command with
    | none => rfl
    | some command => rw [Option.map_some, hr.command_trimmed command hc]
  routes := by
    rw [(fromCells_readBack node).routes, hroutes]
  cell := by
    intro column hcolumn
    have hne : column ≠ .whatNext := by
      rintro rfl
      exact hcolumn (by decide)
    rw [hcells column hne, columnText_of_not_typed node hcolumn]

theorem sameData_readBack {node : Node} (hr : node.Regular) (ho : node.OneLine)
    (h : node.Rewritable) : node.SameData node.readBack := by
  apply sameData_of_cells hr fun column _ => cell_readBack_of_rewritable ho h column
  rw [cell_readBack_of_rewritable ho h]
  exact Route.readTable_join hr.routes_regular

theorem Respelled.sameData {node : Node} (hr : node.Regular) (ho : node.OneLine)
    (h : node.Respelled) : node.SameData node.readBack := by
  refine sameData_of_cells hr (fun column hne => ?_) h.routes
  rcases Nat.lt_trichotomy column.index Column.whatNext.index with hlt | heq | hgt
  · rw [cell_readBack_of_soundAt fun other hle => h.before other (Nat.lt_of_le_of_lt hle hlt),
      Cell.flatten_eq_self (ho column), String.ofList_toList]
  · exact absurd (Column.index_inj.1 heq) hne
  · exact h.behind column hgt

/-- Writing a node anew keeps its data exactly if the texts of all columns can be written so that
they read back, or if its routes are spelled again. -/
theorem sameData_readBack_iff {node : Node} (hr : node.Regular) (ho : node.OneLine) :
    node.SameData node.readBack ↔ node.Rewritable ∨ node.Respelled := by
  constructor
  · intro hsame
    by_contra hneither
    rw [not_or] at hneither
    apply hneither.1
    intro column
    -- The first column that is not sound would be misread.
    induction hi : column.index using Nat.strong_induction_on generalizing column with
    | _ i ih =>
      by_contra hn
      have hbefore : ∀ other : Column, other.index < column.index → node.SoundAt other :=
        fun other hlt => ih other.index (hi ▸ hlt) other rfl
      have hshort : column = .whatNext → node.cells.length ≤ 26 := by
        rintro rfl
        by_contra hlong
        refine hneither.2 ⟨Nat.lt_of_not_le hlong, hbefore, hn, ?_, fun other hlt => ?_⟩
        · rw [← (fromCells_readBack node).routes, ← hsame.routes]
        · have hty : other ∉ Column.typed := not_mem_typed_of_whatNext_lt hlt
          rw [← hsame.cell other hty, columnText_of_not_typed node hty]
      exact not_misread_of_sameData hr ho hsame hshort hbefore hn
        (misread_of_not_soundAt hbefore hn)
  · rintro (h | h)
    · exact sameData_readBack hr ho h
    · exact h.sameData hr ho

/-- A route with a quote in its label swallows the columns behind it, up to a cell that spells it
again. -/
example :
    (ofCells 1 .decision (List.replicate 19 "" ++ "a\"~5" :: List.replicate 6 "" ++
      "|a\"~5" :: List.replicate 6 "") "").Respelled where
  long := by decide +kernel
  before := by decide +kernel
  misread := by decide +kernel
  routes := by decide +kernel
  behind := by decide +kernel

end Node

end DialogTable
