import DialogTable.Node.Line
import DialogTable.Proofs.Cell.Quoting
import DialogTable.Proofs.Text.Numeral

/-!
# Reading back typed fields

The typed fields of a node are written into columns of text. `Regular` collects what reading makes
of them: a message says something, a command is trimmed, a label is trimmed and has no bar in it,
and numbers fit into 64 bits. The main statements say that the text of a regular field reads back:
`unlessBlank_getD`, `readNextNodes_join` and `readTable_join`.
-/

namespace DialogTable

/-- A route as it comes out of a routing table. -/
structure Route.Regular (route : Route) : Prop where
  label_trimmed : Text.trimmed route.label = route.label
  label_single : listSeparator ∉ route.label.toList
  target_inRange : Text.InRange64 route.target

namespace Column

/-- The columns that are held as typed fields. -/
def typed : List Column :=
  [number, kind, name, nextNodes, message, richContentType, richContent, command, whatNext]

end Column

/-- A text that counts as present. -/
def Text.NotBlank (text : Option String) : Prop :=
  ∀ t, text = some t → Text.isBlankText t = false

/-- A node whose typed fields have the form that reading gives them. -/
structure Node.Regular (node : Node) : Prop where
  number_inRange : Text.InRange64 node.number
  message_notBlank : Text.NotBlank node.message
  richContentType_notBlank : Text.NotBlank node.richContentType
  richContent_notBlank : Text.NotBlank node.richContent
  command_notBlank : Text.NotBlank node.command
  command_trimmed : ∀ command, node.command = some command → Text.trimmed command = command
  nextNodes_inRange : ∀ n ∈ node.nextNodes, Text.InRange64 n
  routes_regular : ∀ route ∈ node.routes, route.Regular

namespace Text

theorem notBlank_unlessBlank (text : String) : NotBlank (unlessBlank text) := by
  intro t ht
  rw [unlessBlank] at ht
  split at ht
  · cases ht
  · next hb =>
    rw [← Option.some.inj ht]
    exact Bool.eq_false_iff.2 hb

/-- The text of a field that may be missing reads back. -/
theorem unlessBlank_getD {text : Option String} (h : NotBlank text) :
    unlessBlank (text.getD "") = text := by
  cases text with
  | none => rfl
  | some t => rw [Option.getD_some, unlessBlank, h t rfl, if_neg Bool.false_ne_true]

theorem toList_trimmed (text : String) : (trimmed text).toList = trim text.toList :=
  String.toList_ofList

theorem trimmed_trimmed (text : String) : trimmed (trimmed text) = trimmed text := by
  rw [trimmed, toList_trimmed, trim_trim, trimmed]

theorem toList_join (sep : Char) (texts : List String) :
    (join sep.toString texts).toList = [sep].intercalate (texts.map String.toList) := by
  rw [join, String.toList_intercalate, Char.toString, String.toList_singleton]

end Text

namespace Node

/-- A written next-node list reads back. -/
theorem readNextNodes_join {numbers : List Int} (h : ∀ n ∈ numbers, Text.InRange64 n) :
    readNextNodes (Text.join listSeparator.toString (numbers.map toString)).toList = numbers := by
  rw [readNextNodes, Text.toList_join, List.map_map]
  by_cases hne : numbers = []
  · subst hne
    rfl
  · have hparts : ∀ part ∈ numbers.map (String.toList ∘ toString), ∀ c ∈ part,
        (decide (c = listSeparator) || decide (c = ',')) = false := by
      intro part hp c hc
      obtain ⟨n, -, rfl⟩ := List.mem_map.1 hp
      have hnum : Text.IsNumeral c := Text.isNumeral_of_mem_toString hc
      rw [Bool.or_eq_false_iff, decide_eq_false_iff_not, decide_eq_false_iff_not]
      refine ⟨?_, ?_⟩ <;> rintro rfl <;> exact absurd hnum (by decide)
    rw [Text.splitAt_intercalate (by rfl) (by simpa using hne) hparts, List.filterMap_map]
    conv_rhs => rw [← List.filterMap_some (l := numbers)]
    apply List.filterMap_congr
    intro n hn
    exact Text.readNumber_trim_toString (h n hn)

end Node

namespace Route

theorem toList_text (route : Route) :
    route.text.toList = route.label.toList ++ routeSeparator :: (toString route.target).toList := by
  rw [text, String.toList_append, String.toList_append, List.append_assoc]
  rfl

theorem trim_text {route : Route} (h : route.Regular) :
    Text.trim route.text.toList = route.text.toList := by
  have hlabel : Text.trim route.label.toList = route.label.toList := by
    rw [← Text.toList_trimmed, h.label_trimmed]
  rw [Text.trim_eq_self_iff, toList_text]
  constructor
  · intro c hc
    rcases hl : route.label.toList with _ | ⟨d, rest⟩
    · rw [hl] at hc
      obtain rfl : routeSeparator = c := Option.some.inj hc
      rfl
    · rw [hl] at hc hlabel
      obtain rfl : d = c := Option.some.inj hc
      exact ((Text.trim_eq_self_iff _).1 hlabel).1 d rfl
  · intro c hc
    rw [List.getLast?_append_of_ne_nil _ (List.cons_ne_nil _ _),
      List.getLast?_cons_of_ne_nil (Text.toString_ne_nil _)] at hc
    exact Text.isBlank_of_isNumeral (Text.isNumeral_of_mem_toString (List.mem_of_getLast? hc))

/-- A written route reads back. -/
theorem read_text {route : Route} (h : route.Regular) :
    read (Text.trim route.text.toList) = some route := by
  have hsep : routeSeparator ∉ (toString route.target).toList :=
    Text.not_mem_toString (by decide) route.target
  rw [trim_text h, read, toList_text, Text.splitLast_append hsep]
  simp only [Option.bind_eq_bind, Option.bind_some,
    Text.readNumber_trim_toString h.target_inRange]
  rw [← Text.toList_trimmed, h.label_trimmed, String.ofList_toList]
  rfl

/-- The entries of a written routing table are its routes. -/
theorem splitAt_join {routes : List Route} (hne : routes ≠ [])
    (h : ∀ route ∈ routes, route.Regular) :
    Text.splitAt (· = listSeparator)
        (Text.join listSeparator.toString (routes.map text)).toList =
      routes.map (String.toList ∘ text) := by
  have hparts : ∀ part ∈ routes.map (String.toList ∘ text), ∀ c ∈ part,
      decide (c = listSeparator) = false := by
    intro part hp c hc
    obtain ⟨route, hr, rfl⟩ := List.mem_map.1 hp
    rw [decide_eq_false_iff_not]
    rintro rfl
    rw [Function.comp_apply, toList_text, List.mem_append, List.mem_cons] at hc
    rcases hc with hc | hc | hc
    · exact (h route hr).label_single hc
    · exact absurd hc (by decide)
    · exact Text.not_mem_toString (by decide) route.target hc
  rw [Text.toList_join, List.map_map, Text.splitAt_intercalate (by rfl) (by simpa using hne) hparts]

/-- A written routing table reads back. -/
theorem readTable_join {routes : List Route} (h : ∀ route ∈ routes, route.Regular) :
    readTable (Text.join listSeparator.toString (routes.map text)).toList = routes := by
  by_cases hne : routes = []
  · subst hne
    rfl
  · rw [readTable, splitAt_join hne h, List.filterMap_map]
    conv_rhs => rw [← List.filterMap_some (l := routes)]
    apply List.filterMap_congr
    intro route hr
    exact read_text (h route hr)

/-! ### Fields that were read -/

theorem exists_of_read {entry : List Char} {route : Route} (h : read entry = some route) :
    ∃ label target, entry = label ++ routeSeparator :: target ∧
      route.label = String.ofList (Text.trim label) ∧
      Text.readNumber (Text.trim target) = some route.target := by
  simp only [read, Option.bind_eq_bind, Option.bind_eq_some_iff] at h
  obtain ⟨⟨label, target⟩, hsplit, n, hn, hroute⟩ := h
  obtain rfl := Option.some.inj hroute
  exact ⟨label, target, Text.splitLast_eq_some hsplit, rfl, hn⟩

theorem regular_of_read {entry : List Char} {route : Route} (h : read entry = some route)
    (hentry : listSeparator ∉ entry) : route.Regular := by
  obtain ⟨label, target, rfl, hlabel, hn⟩ := exists_of_read h
  refine ⟨?_, ?_, Text.inRange64_of_readNumber hn⟩
  · rw [hlabel, Text.trimmed, String.toList_ofList, Text.trim_trim]
  · intro hbar
    rw [hlabel, String.toList_ofList] at hbar
    exact hentry (List.mem_append_left _ (Text.mem_of_mem_trim hbar))

theorem regular_of_mem_readTable {raw : List Char} {route : Route} (h : route ∈ readTable raw) :
    route.Regular := by
  obtain ⟨entry, hentry, hread⟩ := List.mem_filterMap.1 h
  apply regular_of_read hread
  intro hbar
  have hsep := (Text.not_sep_of_mem_splitAt hentry (Text.mem_of_mem_trim hbar)).1
  exact absurd hsep (by simp)

theorem mem_of_mem_label {raw : List Char} {route : Route} {c : Char} (h : route ∈ readTable raw)
    (hc : c ∈ route.label.toList) : c ∈ raw := by
  obtain ⟨entry, hentry, hread⟩ := List.mem_filterMap.1 h
  obtain ⟨label, target, htrim, hlabel, -⟩ := exists_of_read hread
  rw [hlabel, String.toList_ofList] at hc
  have hc : c ∈ Text.trim entry := by
    rw [htrim]
    exact List.mem_append_left _ (Text.mem_of_mem_trim hc)
  exact (Text.not_sep_of_mem_splitAt hentry (Text.mem_of_mem_trim hc)).2

end Route

namespace Node

theorem inRange64_of_mem_readNextNodes {raw : List Char} {n : Int} (h : n ∈ readNextNodes raw) :
    Text.InRange64 n := by
  obtain ⟨entry, -, hread⟩ := List.mem_filterMap.1 h
  exact Text.inRange64_of_readNumber hread

/-- A command that was read is trimmed, and trimming leaves something of it. -/
theorem notBlank_map_trimmed (text : String) :
    Text.NotBlank ((Text.unlessBlank text).map Text.trimmed) := by
  intro t ht
  obtain ⟨raw, hraw, rfl⟩ := Option.map_eq_some_iff.1 ht
  rw [Text.isBlankText, Text.toList_trimmed, Text.allBlank_trim]
  exact Text.notBlank_unlessBlank text raw hraw

/-- What is read from cells is regular. -/
theorem regular_ofCells {number : Int} (h : Text.InRange64 number) (kind : NodeKind)
    (cells : List String) (line : String) : (ofCells number kind cells line).Regular where
  number_inRange := h
  message_notBlank := Text.notBlank_unlessBlank _
  richContentType_notBlank := Text.notBlank_unlessBlank _
  richContent_notBlank := Text.notBlank_unlessBlank _
  command_notBlank := notBlank_map_trimmed _
  command_trimmed := by
    intro command hc
    obtain ⟨raw, -, rfl⟩ := Option.map_eq_some_iff.1 hc
    exact Text.trimmed_trimmed raw
  nextNodes_inRange := fun _ hn => inRange64_of_mem_readNextNodes hn
  routes_regular := fun _ hr => Route.regular_of_mem_readTable hr

/-- Next nodes and routes may be replaced by others of the same form. -/
theorem Regular.withExits {node : Node} (h : node.Regular) {nextNodes : List Int}
    {routes : List Route} (line : Option String)
    (hnext : ∀ n ∈ nextNodes, Text.InRange64 n) (hroutes : ∀ route ∈ routes, route.Regular) :
    { node with nextNodes, routes, line }.Regular where
  number_inRange := h.number_inRange
  message_notBlank := h.message_notBlank
  richContentType_notBlank := h.richContentType_notBlank
  richContent_notBlank := h.richContent_notBlank
  command_notBlank := h.command_notBlank
  command_trimmed := h.command_trimmed
  nextNodes_inRange := hnext
  routes_regular := hroutes

theorem Regular.touch {node : Node} (h : node.Regular) : node.touch.Regular :=
  h.withExits none h.nextNodes_inRange h.routes_regular

/-! ### The columns of a node that was read -/

theorem columnText_of_not_typed (node : Node) {column : Column} (h : column ∉ Column.typed) :
    node.columnText column = node.cell column := by
  cases column <;> first | rfl | exact absurd (by decide) h

theorem cell_ofCells (number : Int) (kind : NodeKind) (cells : List String) (line : String)
    (column : Column) : (ofCells number kind cells line).cell column = cells.getD column.index "" := by
  simp only [cell, ofCells, List.getD_eq_getElem?_getD, List.getElem?_append,
    List.getElem?_replicate]
  split
  · rfl
  · next hlen =>
    rw [List.getElem?_eq_none (Nat.le_of_not_lt hlen)]
    split <;> rfl

/-- The typed fields of a node are those that its cells give. -/
structure FromCells (node : Node) : Prop where
  name : node.name = node.cell .name
  message : node.message = Text.unlessBlank (node.cell .message)
  richContentType : node.richContentType = Text.unlessBlank (node.cell .richContentType)
  richContent : node.richContent = Text.unlessBlank (node.cell .richContent)
  nextNodes : node.nextNodes = readNextNodes (node.cell .nextNodes).toList
  command : node.command = (Text.unlessBlank (node.cell .command)).map Text.trimmed
  routes : node.routes = Route.readTable (node.cell .whatNext).toList

theorem fromCells_ofCells (number : Int) (kind : NodeKind) (cells : List String) (line : String) :
    (ofCells number kind cells line).FromCells := by
  constructor <;> rw [cell_ofCells] <;> rfl

/-! ### The characters of a column -/

/-- The characters that fields are written with: those of numbers, the letters of kinds and the two
separators. -/
def IsMark (c : Char) : Prop :=
  Text.IsNumeral c ∨ c ∈ ['D', 'A', listSeparator, routeSeparator]

instance (c : Char) : Decidable (IsMark c) :=
  inferInstanceAs (Decidable (_ ∨ _))

theorem isMark_of_mem_letter {kind : NodeKind} {c : Char} (h : c ∈ kind.letter.toList) :
    IsMark c := by
  have hletter : kind.letter.toList ⊆ ['D', 'A', listSeparator, routeSeparator] := by
    cases kind <;> decide
  exact .inr (hletter h)

theorem isMark_of_mem_nextNodes_text {node : Node} {c : Char}
    (h : c ∈ (node.columnText .nextNodes).toList) : IsMark c := by
  rw [columnText, Text.toList_join, List.map_map] at h
  rcases Text.mem_intercalate h with rfl | ⟨part, hpart, hc⟩
  · decide
  · obtain ⟨n, -, rfl⟩ := List.mem_map.1 hpart
    exact .inl (Text.isNumeral_of_mem_toString hc)

theorem mem_whatNext_text {node : Node} {c : Char} (h : c ∈ (node.columnText .whatNext).toList) :
    IsMark c ∨ ∃ route ∈ node.routes, c ∈ route.label.toList := by
  rw [columnText, Text.toList_join, List.map_map] at h
  rcases Text.mem_intercalate h with rfl | ⟨part, hpart, hc⟩
  · exact .inl (by decide)
  · obtain ⟨route, hroute, rfl⟩ := List.mem_map.1 hpart
    rw [Function.comp_apply, Route.toList_text, List.mem_append, List.mem_cons] at hc
    rcases hc with hc | rfl | hc
    · exact .inr ⟨route, hroute, hc⟩
    · exact .inl (by decide)
    · exact .inl (.inl (Text.isNumeral_of_mem_toString hc))

theorem mem_whatNext_text_of_mem_label {node : Node} {route : Route} {c : Char}
    (hroute : route ∈ node.routes) (h : c ∈ route.label.toList) :
    c ∈ (node.columnText .whatNext).toList := by
  rw [columnText, Text.toList_join, List.map_map]
  apply Text.mem_intercalate_of_mem (List.mem_map_of_mem hroute)
  rw [Function.comp_apply, Route.toList_text]
  exact List.mem_append_left _ h

theorem mem_of_mem_unlessBlank {text : String} {c : Char}
    (h : c ∈ ((Text.unlessBlank text).getD "").toList) : c ∈ text.toList := by
  rw [Text.unlessBlank] at h
  split at h
  · exact absurd h List.not_mem_nil
  · exact h

theorem mem_of_mem_map_trimmed {text : Option String} {c : Char}
    (h : c ∈ ((text.map Text.trimmed).getD "").toList) : c ∈ (text.getD "").toList := by
  cases text with
  | none => exact h
  | some text =>
    rw [Option.map_some, Option.getD_some, Text.toList_trimmed] at h
    exact Text.mem_of_mem_trim h

/-- Typed fields that come from cells are written with the characters of the cells and marks. -/
theorem FromCells.mem_columnText {node : Node} (hf : node.FromCells) {column : Column} {c : Char}
    (h : c ∈ (node.columnText column).toList) : c ∈ (node.cell column).toList ∨ IsMark c := by
  by_cases hty : column ∈ Column.typed
  · simp only [Column.typed, List.mem_cons, List.not_mem_nil, or_false] at hty
    rcases hty with rfl | rfl | rfl | rfl | rfl | rfl | rfl | rfl | rfl
    · exact .inr (.inl (Text.isNumeral_of_mem_toString h))
    · exact .inr (isMark_of_mem_letter h)
    · rw [columnText, hf.name] at h
      exact .inl h
    · exact .inr (isMark_of_mem_nextNodes_text h)
    · rw [columnText, hf.message] at h
      exact .inl (mem_of_mem_unlessBlank h)
    · rw [columnText, hf.richContentType] at h
      exact .inl (mem_of_mem_unlessBlank h)
    · rw [columnText, hf.richContent] at h
      exact .inl (mem_of_mem_unlessBlank h)
    · rw [columnText, hf.command] at h
      exact .inl (mem_of_mem_unlessBlank (mem_of_mem_map_trimmed h))
    · rcases mem_whatNext_text h with hmark | ⟨route, hroute, hc⟩
      · exact .inr hmark
      · rw [hf.routes] at hroute
        exact .inl (Route.mem_of_mem_label hroute hc)
  · rw [columnText_of_not_typed node hty] at h
    exact .inl h

/-- No column holds a line break. -/
def OneLine (node : Node) : Prop :=
  ∀ column, Cell.OneLine (node.columnText column).toList

/-! ### Nodes of lines -/

theorem ofLine_eq_ok {line : String} {node : Node} (h : ofLine line = .ok node) :
    ∃ number kind, Text.InRange64 number ∧
      node = ofCells number kind ((Cell.split line.toList).map String.ofList) line := by
  unfold ofLine at h
  dsimp only at h
  split at h
  · cases h
  · next number hnumber =>
    split at h
    · cases h
    · next kind _ =>
      exact ⟨number, kind, Text.inRange64_of_readNumber hnumber, (Except.ok.inj h).symm⟩

theorem regular_ofLine {line : String} {node : Node} (h : ofLine line = .ok node) :
    node.Regular := by
  obtain ⟨number, kind, hrange, rfl⟩ := ofLine_eq_ok h
  exact regular_ofCells hrange _ _ _

theorem fromCells_ofLine {line : String} {node : Node} (h : ofLine line = .ok node) :
    node.FromCells := by
  obtain ⟨number, kind, -, rfl⟩ := ofLine_eq_ok h
  exact fromCells_ofCells _ _ _ _

theorem getD_split (line : String) (i : Nat) :
    (((Cell.split line.toList).map String.ofList).getD i "").toList = [] ∨
      (((Cell.split line.toList).map String.ofList).getD i "").toList ∈ Cell.split line.toList := by
  rw [List.getD_eq_getElem?_getD, List.getElem?_map]
  cases hcell : (Cell.split line.toList)[i]? with
  | none => exact .inl rfl
  | some cell =>
    rw [Option.map_some, Option.getD_some, String.toList_ofList]
    exact .inr (List.mem_of_getElem? hcell)

/-- The cells of a node that was read are those of its line. -/
theorem cell_ofLine {line : String} {node : Node} (h : ofLine line = .ok node) (column : Column) :
    (node.cell column).toList = [] ∨ (node.cell column).toList ∈ Cell.split line.toList := by
  obtain ⟨number, kind, -, rfl⟩ := ofLine_eq_ok h
  rw [cell_ofCells]
  exact getD_split line column.index

/-- What is read from a line is written with the characters of the line and marks. -/
theorem mem_columnText_ofLine {line : String} {node : Node} (h : ofLine line = .ok node)
    {column : Column} {c : Char} (hc : c ∈ (node.columnText column).toList) :
    c ∈ line.toList ∨ IsMark c := by
  rcases (fromCells_ofLine h).mem_columnText hc with hc | hmark
  · rcases cell_ofLine h column with hnil | hcell
    · rw [hnil] at hc
      exact absurd hc List.not_mem_nil
    · exact .inl (Cell.mem_of_mem_split hcell hc)
  · exact .inr hmark

/-- The raw texts of a node that was read are made of the characters of its line. -/
theorem mem_line_of_mem_cells {line : String} {node : Node} (h : ofLine line = .ok node)
    {text : String} (htext : text ∈ node.cells) {c : Char} (hc : c ∈ text.toList) :
    c ∈ line.toList := by
  obtain ⟨number, kind, -, rfl⟩ := ofLine_eq_ok h
  rcases List.mem_append.1 htext with htext | htext
  · obtain ⟨cell, hcell, rfl⟩ := List.mem_map.1 htext
    rw [String.toList_ofList] at hc
    exact Cell.mem_of_mem_split hcell hc
  · rw [List.eq_of_mem_replicate htext] at hc
    exact absurd hc List.not_mem_nil

theorem ne_lineBreak_of_isMark {c : Char} (h : IsMark c) : c ≠ '\n' ∧ c ≠ '\r' := by
  constructor <;> rintro rfl <;> exact absurd h (by decide)

theorem oneLine_ofLine {line : String} {node : Node} (h : ofLine line = .ok node)
    (hl : Cell.OneLine line.toList) : node.OneLine := by
  intro column c hc
  rcases mem_columnText_ofLine h hc with hc | hmark
  · exact hl c hc
  · exact ne_lineBreak_of_isMark hmark

end Node

end DialogTable
