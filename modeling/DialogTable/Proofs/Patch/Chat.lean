import DialogTable.Json.Equality
import DialogTable.Patch.Chat
import DialogTable.Proofs.Json.Printed

/-!
# Patches in a conversation

The object of a patch is cut out of a reply at the first opening and the last closing brace. Text
without opening braces in front of it and text without closing braces behind it change nothing
(`ofContentWith_around`), and neither do braces, fences or line breaks in the table: the object that
is written for a patch is read as this patch (`ofContent_print`).
-/

namespace DialogTable

open Json (Document Reader Reads Token)

/-! ### The object of a patch -/

/-- The object that the service is asked for. -/
def Patch.toJson (patch : Patch) : Json :=
  .ofMembers [("csv", .string patch.tableText), ("fixes", .array (patch.fixes.map .string))]

/-- A value with the members that a patch is read from, and maybe others. -/
structure Patch.IsIn (patch : Patch) (value : Json) : Prop where
  tableText : value.get? "csv" = some (.string patch.tableText)
  fixes : value.get? "fixes" = some (.array (patch.fixes.map .string))

theorem Patch.toJson_eq (patch : Patch) :
    patch.toJson =
      .object [("csv", .string patch.tableText), ("fixes", .array (patch.fixes.map .string))] := by
  have hne : "fixes" ≠ "csv" := by decide
  have hlt : ¬ "fixes" < "csv" := by decide
  simp only [Patch.toJson, Json.ofMembers, Json.sortMembers, List.foldl_cons, List.foldl_nil,
    Json.insertMember, if_neg hne, if_neg hlt]

theorem Patch.isIn_toJson (patch : Patch) : patch.IsIn patch.toJson := by
  rw [toJson_eq]
  exact ⟨rfl, rfl⟩

namespace Patch.Chat

theorem ofJson_of_isIn {patch : Patch} {value : Json} (h : patch.IsIn value)
    (htext : Text.isBlankText patch.tableText = false) : ofJson value = .ok patch := by
  have hfound : (tableKeys.findSome? fun key => (value.get? key).bind Json.string?) =
      some patch.tableText := by
    rw [tableKeys, List.findSome?_cons, h.tableText]
    rfl
  have hkept : Text.unlessBlank patch.tableText = some patch.tableText := by
    rw [Text.unlessBlank, htext]
    rfl
  have hfixes : (patch.fixes.map Json.string).filterMap Json.string? = patch.fixes := by
    rw [List.filterMap_map]
    exact List.filterMap_some
  rw [ofJson, hfound, Option.bind_some, hkept, h.fixes]
  show Except.ok { patch with fixes := (patch.fixes.map Json.string).filterMap Json.string? } = _
  rw [hfixes]

/-! ### Cutting the object out -/

/-- A text between braces. -/
def IsBraced (text : List Char) : Prop :=
  ∃ inner, text = '\x7b' :: (inner ++ ['\x7d'])

theorem isBraced_of_ends {text : List Char} (hfirst : text.head? = some '\x7b')
    (hlast : text.getLast? = some '\x7d') : IsBraced text := by
  obtain ⟨rest, rfl⟩ := List.head?_eq_some_iff.1 hfirst
  cases rest with
  | nil => exact absurd hlast (by decide)
  | cons c rest =>
    rw [List.getLast?_cons_cons] at hlast
    obtain ⟨inner, hinner⟩ := List.getLast?_eq_some_iff.1 hlast
    exact ⟨inner, congrArg _ hinner⟩

theorem objectText?_around {front text back : List Char} (hfront : '\x7b' ∉ front)
    (hback : '\x7d' ∉ back) (htext : IsBraced text) :
    objectText? (front ++ (text ++ back)) = some text := by
  obtain ⟨inner, rfl⟩ := htext
  have hother {d : Char} {text : List Char} (h : d ∉ text) :
      ∀ c ∈ text, decide (c ≠ d) = true := by
    intro c hc
    refine decide_eq_true ?_
    rintro rfl
    exact h hc
  have hreverse : ('\x7b' :: (inner ++ ['\x7d']) ++ back).reverse =
      back.reverse ++ '\x7d' :: (inner.reverse ++ ['\x7b']) := by
    simp
  have hrest : ('\x7d' :: (inner.reverse ++ ['\x7b'])).reverse = '\x7b' :: (inner ++ ['\x7d']) := by
    simp
  have hopening : (front ++ ('\x7b' :: (inner ++ ['\x7d']) ++ back)).dropWhile (· ≠ '\x7b') =
      '\x7b' :: (inner ++ ['\x7d']) ++ back := by
    rw [List.dropWhile_append_of_pos (hother hfront)]
    exact List.dropWhile_cons_of_neg (by decide)
  rw [objectText?, hopening, hreverse,
    List.dropWhile_append_of_pos (hother (mt List.mem_reverse.1 hback)),
    List.dropWhile_cons_of_neg (by decide), hrest]

/-- What a text holds by its object alone, to any reader of JSON. -/
theorem ofContentWith_around {front object back : String} (hfront : '\x7b' ∉ front.toList)
    (hback : '\x7d' ∉ back.toList) (hobject : IsBraced object.toList)
    (read : String → Option Json) :
    ofContentWith read (front ++ object ++ back) =
      (read object).elim (.error (.malformed "invalid JSON")) ofJson := by
  have htext : objectText? (front ++ object ++ back).toList = some object.toList := by
    rw [String.toList_append, String.toList_append, List.append_assoc,
      objectText?_around hfront hback hobject]
  rw [ofContentWith, htext]
  simp only [String.ofList_toList]
  cases read object with
  | none => rfl
  | some value => rfl

theorem ofContentWith_of_isBraced {object : String} (h : IsBraced object.toList)
    (read : String → Option Json) :
    ofContentWith read object =
      (read object).elim (.error (.malformed "invalid JSON")) ofJson := by
  have halone : ofContentWith read ("" ++ object ++ "") =
      (read object).elim (.error (.malformed "invalid JSON")) ofJson :=
    ofContentWith_around List.not_mem_nil List.not_mem_nil h read
  rwa [String.empty_append, String.append_empty] at halone

/-! ### The written object -/

/-- The tokens of the object of a patch. -/
def tokens (patch : Patch) : List Token :=
  [.openBrace, .quoted "csv", .colon, .quoted patch.tableText, .comma, .quoted "fixes", .colon,
    .openBracket] ++
  ([Token.comma].intercalate (patch.fixes.map fun fix => [.quoted (some fix)]) ++
    [.closeBracket]) ++
  [.closeBrace]

/-- The document of the object of a patch. -/
def document (patch : Patch) : Document :=
  .object [("csv", .quoted patch.tableText),
    ("fixes", .array (patch.fixes.map fun fix => .quoted (some fix)))]

theorem tokenize_print (patch : Patch) :
    Json.tokenize patch.toJson.print.toList = some (tokens patch) := by
  have hopenBrace : Reads (String.toList "\x7b") [.openBrace] := Json.reads_mark rfl
  have hcloseBrace : Reads (String.toList "\x7d") [.closeBrace] := Json.reads_mark rfl
  have hopenBracket : Reads (String.toList "[") [.openBracket] := Json.reads_mark rfl
  have hcloseBracket : Reads (String.toList "]") [.closeBracket] := Json.reads_mark rfl
  have htexts : List.Forall₂ (fun text own => Reads (String.toList text) own)
      (Json.printItems (patch.fixes.map .string))
      (patch.fixes.map fun fix => [.quoted (some fix)]) := by
    induction patch.fixes with
    | nil => exact .nil
    | cons fix rest ih => exact .cons (Json.reads_printString fix) ih
  have htable := Json.reads_member (Json.reads_printString patch.tableText) "csv"
  have hfixes := Json.reads_member (Json.reads_block hopenBracket hcloseBracket htexts) "fixes"
  have hall := Json.reads_block hopenBrace hcloseBrace (.cons htable (.cons hfixes .nil))
  rw [Patch.toJson_eq, tokens]
  refine Eq.trans hall.tokenize ?_
  simp

theorem foldlM_step_texts (stack : List Json.Frame) (texts : List String) :
    ([Token.comma].intercalate (texts.map fun text => [.quoted (some text)]) ++
        [Token.closeBracket]).foldlM Reader.step (.itemOrEnd stack) =
      some (.after (.array (texts.map fun text => .quoted (some text))) stack) :=
  Json.foldlM_step_array (fun _ _ => rfl) (fun text => ⟨.quoted (some text), [], rfl, nofun⟩) texts

theorem foldlM_step_tokens (patch : Patch) :
    (tokens patch).foldlM Reader.step (.value []) = some (.after (document patch) []) := by
  rw [tokens, List.foldlM_append, List.foldlM_append]
  show ((([Token.comma].intercalate (patch.fixes.map fun fix => [.quoted (some fix)]) ++
    [Token.closeBracket]).foldlM Reader.step (.itemOrEnd _)).bind fun reader =>
      [Token.closeBrace].foldlM Reader.step reader) = _
  rw [foldlM_step_texts]
  rfl

theorem ofItems?_texts (levels : Nat) (texts : List String) :
    Json.ofItems? levels (texts.map fun text => .quoted (some text)) =
      some (texts.map .string) := by
  induction texts with
  | nil => rfl
  | cons text rest ih =>
    rw [List.map_cons, Json.ofItems?, ih]
    rfl

theorem ofDocument?_document (patch : Patch) :
    Json.ofDocument? Json.depthLimit (document patch) = some patch.toJson := by
  have hfixes : Json.ofDocument? (Json.depthLimit - 1)
      (.array (patch.fixes.map fun fix => .quoted (some fix))) =
        some (.array (patch.fixes.map .string)) := by
    rw [Json.ofDocument?, ofItems?_texts]
    rfl
  rw [Patch.toJson, Json.ofMembers, document, Json.ofDocument?, Json.ofMembers?, Json.ofMembers?,
    hfixes]
  rfl

/-- The object that is written for a patch is read again. -/
theorem ofText?_print (patch : Patch) : Json.ofText? patch.toJson.print = some patch.toJson := by
  have hdocument : Document.ofText? patch.toJson.print = some (document patch) := by
    rw [Document.ofText?, tokenize_print]
    show ((tokens patch).foldlM Reader.step (.value [])).bind Reader.finish = _
    rw [foldlM_step_tokens]
    rfl
  rw [Json.ofText?, hdocument, Option.bind_some, ofDocument?_document]

theorem isBraced_print (patch : Patch) : IsBraced patch.toJson.print.toList := by
  rw [Patch.toJson_eq, Json.print, String.toList_append, String.toList_append]
  exact ⟨_, rfl⟩

/-! ### The patch of a reply -/

/-- **A patch is read by its object alone.** Text without opening braces in front of an object and
text without closing braces behind it make no difference, to any reader of JSON. Where the reader
finds the members of a patch in the object and the table is not blank, the reply holds exactly this
patch. The reader of this library finds them in the object that is written for the patch, whatever
the table and the fixes are made of. -/
theorem ofContentWith_append (front object back : String) (hfront : '\x7b' ∉ front.toList)
    (hback : '\x7d' ∉ back.toList) (hfirst : object.toList.head? = some '\x7b')
    (hlast : object.toList.getLast? = some '\x7d') :
    (∀ read : String → Option Json,
      ofContentWith read (front ++ object ++ back) = ofContentWith read object) ∧
    (∀ patch : Patch, Text.isBlankText patch.tableText = false →
      (∀ (read : String → Option Json) (value : Json), read object = some value →
        patch.IsIn value → ofContentWith read (front ++ object ++ back) = .ok patch) ∧
      ofContent (front ++ patch.toJson.print ++ back) = .ok patch) := by
  have hobject : IsBraced object.toList := isBraced_of_ends hfirst hlast
  refine ⟨fun read => ?_, fun patch htext => ⟨fun read value hread hpatch => ?_, ?_⟩⟩
  · rw [ofContentWith_around hfront hback hobject, ofContentWith_of_isBraced hobject]
  · rw [ofContentWith_around hfront hback hobject, hread, Option.elim_some]
    exact ofJson_of_isIn hpatch htext
  · rw [ofContent, ofContentWith_around hfront hback (isBraced_print patch), ofText?_print,
      Option.elim_some]
    exact ofJson_of_isIn patch.isIn_toJson htext

/-- A reply with braces on both sides of the object, about a table that holds a fence, line breaks
and a payload with braces. -/
theorem ofContentWith_append_of_fences :
    let patch : Patch :=
      { tableText := "h\n1,D,\"\x7b\"\"a\"\": \x7b\x7d\x7d\"\n```\n", fixes := ["closed \x7d", ""] }
    let front := "Node 1 had a \x7d too many:\n```json\n"
    let object := "\x7b \"fixes\": [\"closed \\u007d\", \"\"], \"note\": \x7b\x7d,\n" ++
      "\"csv\": \"h\\n1,D,\\\"\x7b\\\"\\\"a\\\"\\\": \x7b\x7d\x7d\\\"\\n```\\n\" \x7d"
    let back := "\n```\nNo \x7b is missing."
    '\x7b' ∉ front.toList ∧ '\x7d' ∉ back.toList ∧
      object.toList.head? = some '\x7b' ∧ object.toList.getLast? = some '\x7d' ∧
      Text.isBlankText patch.tableText = false ∧
      ofContentWith Json.ofText? (front ++ object ++ back) =
        ofContentWith Json.ofText? object ∧
      ofContentWith Json.ofText? (front ++ object ++ back) = .ok patch ∧
      ofContent (front ++ patch.toJson.print ++ back) = .ok patch := by
  intro patch front object back
  have hfront : '\x7b' ∉ front.toList := by decide +kernel
  have hback : '\x7d' ∉ back.toList := by decide +kernel
  have hfirst : object.toList.head? = some '\x7b' := by decide +kernel
  have hlast : object.toList.getLast? = some '\x7d' := by decide +kernel
  have htext : Text.isBlankText patch.tableText = false := by decide +kernel
  let value : Json := .object [("csv", .string patch.tableText),
    ("fixes", .array (patch.fixes.map .string)), ("note", .object [])]
  have hvalue : Json.ofText? object = some value := by decide +kernel
  have hpatch : patch.IsIn value := ⟨rfl, rfl⟩
  obtain ⟨hsame, hholds⟩ := ofContentWith_append front object back hfront hback hfirst hlast
  obtain ⟨hread, hwritten⟩ := hholds patch htext
  exact ⟨hfront, hback, hfirst, hlast, htext, hsame Json.ofText?,
    hread Json.ofText? value hvalue hpatch, hwritten⟩

end Patch.Chat

end DialogTable
