import DialogTable.Proofs.Cell.Row
import DialogTable.Proofs.Json.Spaces
import DialogTable.RichContent

/-!
# Payloads

Only the trimmed text of a payload counts, and of a tag the kind that it names.

A payload with every quote doubled stands between two quotes in a row whatever it holds: its quotes
come in pairs, so that the two around it guard all its commas. The doubling is undone where the
payload is read, but only if the doubled text is no JSON: doubled, `[","]` becomes `["",""]`, another
value.
-/

namespace DialogTable

/-! ### Doubling the quotes -/

namespace RichContent

/-- Writes every quote twice. -/
def double (text : List Char) : List Char :=
  text.flatMap fun c => if c = '"' then ['"', '"'] else [c]

/-- `double` on strings. -/
def doubled (text : String) : String :=
  .ofList (double text.toList)

@[simp] theorem double_nil : double [] = [] := rfl

theorem double_quote (rest : List Char) : double ('"' :: rest) = '"' :: '"' :: double rest := rfl

theorem double_cons_of_ne {c : Char} (h : c ≠ '"') (rest : List Char) :
    double (c :: rest) = c :: double rest := by
  simp [double, h]

theorem double_append (a b : List Char) : double (a ++ b) = double a ++ double b :=
  List.flatMap_append

theorem double_eq_self {text : List Char} (h : '"' ∉ text) : double text = text := by
  induction text with
  | nil => rfl
  | cons c rest ih =>
    rw [List.mem_cons, not_or] at h
    rw [double_cons_of_ne (Ne.symm h.1), ih h.2]

/-- Neighbouring pairs do not run into each other: each pair is one quote again. -/
theorem undouble_double (text : List Char) : undouble (double text) = text := by
  induction text with
  | nil => rfl
  | cons c rest ih =>
    by_cases hc : c = '"'
    · subst hc
      rw [double_quote, undouble, ih]
    · rw [double_cons_of_ne hc, undouble, ih]
      exact fun _ h _ => hc h

theorem head?_double (text : List Char) : (double text).head? = text.head? := by
  cases text with
  | nil => rfl
  | cons c rest =>
    by_cases hc : c = '"'
    · subst hc
      rfl
    · rw [double_cons_of_ne hc, List.head?_cons, List.head?_cons]

theorem getLast?_double (text : List Char) : (double text).getLast? = text.getLast? := by
  induction text using List.reverseRecOn with
  | nil => rfl
  | append_singleton init c _ =>
    rw [double_append, List.getLast?_concat]
    by_cases hc : c = '"'
    · subst hc
      exact List.getLast?_append_of_ne_nil (double init) (List.cons_ne_nil '"' ['"'])
    · rw [double_cons_of_ne hc, double_nil, List.getLast?_concat]

/-! ### Blanks -/

theorem double_of_blanks {text : List Char} (h : ∀ c ∈ text, Text.isBlank c = true) :
    double text = text :=
  double_eq_self fun hquote => Bool.false_ne_true (h '"' hquote)

/-- A doubled text is trimmed where the text is. -/
theorem trim_double_of_trimmed {text : List Char} (h : Text.trim text = text) :
    Text.trim (double text) = double text := by
  rw [Text.trim_eq_self_iff, head?_double, getLast?_double]
  exact (Text.trim_eq_self_iff text).1 h

theorem trim_double (text : List Char) : Text.trim (double text) = double (Text.trim text) := by
  obtain ⟨before, after, htext, hbefore, hafter⟩ := Text.exists_blanks_trim text
  conv_lhs => rw [htext, double_append, double_append, double_of_blanks hbefore,
    double_of_blanks hafter]
  exact Text.trim_between hbefore (trim_double_of_trimmed (Text.trim_trim text)) hafter

end RichContent

/-! ### The row -/

namespace Cell

open RichContent

/-- The quotes of a doubled text come in pairs, and no comma stands within a pair. -/
theorem oddQuotes_double (text : List Char) : oddQuotes (double text) = false := by
  induction text with
  | nil => rfl
  | cons c rest ih =>
    by_cases hc : c = '"'
    · subst hc
      rw [double_quote, oddQuotes_cons, oddQuotes_cons, ih]
      rfl
    · rw [double_cons_of_ne hc, oddQuotes_cons, ih, decide_eq_false hc]
      rfl

theorem commasAfter_double (text : List Char) : CommasAfter false (double text) := by
  induction text with
  | nil => exact commasAfter_nil false
  | cons c rest ih =>
    by_cases hc : c = '"'
    · subst hc
      rw [double_quote, commasAfter_cons_iff, commasAfter_cons_iff]
      exact ⟨fun _ => rfl, fun h => absurd h (by decide), ih⟩
    · rw [double_cons_of_ne hc, commasAfter_cons_iff, decide_eq_false hc]
      exact ⟨fun _ => rfl, ih⟩

/-- A cell between two quotes is read back if its own quotes leave its commas to these two. -/
theorem split_wrap_comma {cell : List Char} (hcommas : CommasAfter false cell)
    (heven : oddQuotes cell = false) (line : List Char) :
    split (wrap cell ++ ',' :: line) = cell :: split line := by
  have hwrap : oddQuotes (wrap cell) = false := by
    rw [wrap, oddQuotes_cons, oddQuotes_append, heven]
    rfl
  rw [split_append_comma (commasAfter_wrap.2 hcommas) hwrap, unwrap_wrap]

end Cell

/-! ### Reading -/

namespace RichContent

/-- The kind of content that a tag asks for. -/
def kindOf (tag : Option String) : ContentKind :=
  ((tag.bind Text.unlessBlank).map fun tag => .ofTag (Text.trim tag.toList)).getD .generic

section Reading

variable (read : String → Option Json) (tag : Option String)

theorem parseWith_of_not_blank {payload : String} (h : Text.trim payload.toList ≠ []) :
    parseWith read tag (some payload) =
      some (ofValue (kindOf tag) (decodeWith read (Text.trim payload.toList))) := by
  have hpresent : Text.unlessBlank (Text.trimmed payload) = some (Text.trimmed payload) := by
    rw [Text.unlessBlank, if_neg]
    intro hblank
    rw [Text.isBlankText, Text.trimmed, String.toList_ofList, Text.allBlank_trim] at hblank
    exact h (Text.trim_of_allBlank hblank)
  rw [parseWith, Option.bind_some, hpresent, if_neg (fun hnone => nomatch hnone.1),
    Option.bind_some, Text.trimmed, String.toList_ofList, kindOf]

/-- Only the trimmed payload counts. -/
theorem parseWith_congr {a b : String} (h : Text.trim a.toList = Text.trim b.toList) :
    parseWith read tag (some a) = parseWith read tag (some b) := by
  have htrimmed : Text.trimmed a = Text.trimmed b := congrArg String.ofList h
  rw [parseWith, parseWith, Option.bind_some, Option.bind_some, htrimmed]

end Reading

/-- Where the text has a value, the value of the doubled text is the same or its own. -/
theorem decodeWith_double {read : String → Option Json} {text : List Char}
    (hvalid : (read (.ofList text)).isSome) (hnone : read (.ofList (double text)) = none) :
    decodeWith read (double text) = decodeWith read text := by
  obtain ⟨value, hvalue⟩ := Option.isSome_iff_exists.1 hvalid
  rw [decodeWith, decodeWith, hnone, undouble_double, hvalue, Option.none_or, Option.some_or]

/-- For any reader of JSON: a payload means the same with its quotes doubled. -/
theorem parseWith_doubled {read : String → Option Json} {text : String}
    (hvalid : (read (Text.trimmed text)).isSome) (hnone : read (Text.trimmed (doubled text)) = none)
    (tag : Option String) :
    parseWith read tag (some (doubled text)) = parseWith read tag (some text) := by
  have htrim : Text.trim (doubled text).toList = double (Text.trim text.toList) := by
    rw [doubled, String.toList_ofList, trim_double]
  by_cases hnil : Text.trim text.toList = []
  · exact parseWith_congr read tag (by rw [htrim, hnil, double_nil])
  · have hne : Text.trim (doubled text).toList ≠ [] := by
      rw [htrim]
      intro hdouble
      have hhead := head?_double (Text.trim text.toList)
      rw [hdouble, List.head?_nil] at hhead
      exact hnil (List.head?_eq_none_iff.1 hhead.symm)
    rw [Text.trimmed, htrim] at hnone
    rw [parseWith_of_not_blank read tag hne, parseWith_of_not_blank read tag hnil, htrim,
      decodeWith_double hvalid hnone]

/-- White space of JSON around a text stands around the doubled text too, so that neither value
changes by trimming. -/
theorem ofText?_trimmed {text : String} (h : (Json.ofText? text).isSome) :
    Json.ofText? (Text.trimmed text) = Json.ofText? text ∧
      Json.ofText? (Text.trimmed (doubled text)) = Json.ofText? (doubled text) := by
  obtain ⟨before, after, htext, hbefore, hafter⟩ :=
    Json.exists_spaces_of_tokenize (Json.tokenize_isSome_of_ofText? h)
  have hblanks {spaces : List Char} (hspaces : ∀ c ∈ spaces, Json.Token.isSpace c = true) :
      double spaces = spaces :=
    double_of_blanks fun c hc => Json.isBlank_of_isSpace (hspaces c hc)
  have hdouble : double text.toList = before ++ (double (Text.trim text.toList) ++ after) := by
    conv_lhs => rw [htext, double_append, double_append, hblanks hbefore, hblanks hafter]
  constructor
  · apply Json.ofText?_congr
    conv_rhs => rw [htext, Json.tokenize_between hbefore hafter]
    rw [Text.trimmed, String.toList_ofList]
  · apply Json.ofText?_congr
    rw [Text.trimmed, doubled, String.toList_ofList, String.toList_ofList, trim_double]
    conv_rhs => rw [hdouble, Json.tokenize_between hbefore hafter]

/-- A payload with its quotes doubled, in a row between two quotes, is read as one cell. It means
the same as the plain payload, by any reader of JSON to which only the plain one is JSON. For the
reader of this library the white space around a payload does not matter. -/
theorem parse_doubled (tag : Option String) (text : String) (rest : List Char) :
    Cell.split ('"' :: (double text.toList ++ '"' :: ',' :: rest)) =
        double text.toList :: Cell.split rest ∧
      (∀ read : String → Option Json, (read (Text.trimmed text)).isSome →
        read (Text.trimmed (doubled text)) = none →
        parseWith read tag (some (doubled text)) = parseWith read tag (some text)) ∧
      ((Json.ofText? text).isSome → Json.ofText? (doubled text) = none →
        parse tag (some (doubled text)) = parse tag (some text)) := by
  refine ⟨?_, fun _ hvalid hnone => parseWith_doubled hvalid hnone tag, fun hvalid hnone => ?_⟩
  · have hline : '"' :: (double text.toList ++ '"' :: ',' :: rest) =
        Cell.wrap (double text.toList) ++ ',' :: rest := by
      simp [Cell.wrap]
    rw [hline]
    exact Cell.split_wrap_comma (Cell.commasAfter_double _) (Cell.oddQuotes_double _) rest
  · obtain ⟨hplain, hdouble⟩ := ofText?_trimmed hvalid
    rw [← hplain] at hvalid
    rw [← hdouble] at hnone
    exact parseWith_doubled hvalid hnone tag

/-- A payload with a comma and quotes inside of a text, an empty text and white space around it. -/
def quotedPayload : String :=
  " \x7b\"title\":\"a, \\\"b\\\"\",\"options\":[\x7b\"label\":\"\",\"dest\":7\x7d]\x7d\t"

theorem parse_doubled_of_buttons :
    (Json.ofText? quotedPayload).isSome ∧ Json.ofText? (doubled quotedPayload) = none ∧
      Cell.split ('"' :: (double quotedPayload.toList ++ '"' :: ',' :: "x,y".toList)) =
        double quotedPayload.toList :: Cell.split "x,y".toList ∧
      parseWith Json.ofText? (some "buttons") (some (doubled quotedPayload)) =
        parseWith Json.ofText? (some "buttons") (some quotedPayload) ∧
      parse (some "buttons") (some (doubled quotedPayload)) =
        parse (some "buttons") (some quotedPayload) ∧
      (parse (some "buttons") (some quotedPayload)).map choices =
        some [{ label := "", destination := some 7 }] := by
  have hvalid : (Json.ofText? quotedPayload).isSome := by decide +kernel
  have hnone : Json.ofText? (doubled quotedPayload) = none := by decide +kernel
  obtain ⟨hplain, hdouble⟩ := ofText?_trimmed hvalid
  obtain ⟨hcell, hwith, hparse⟩ := parse_doubled (some "buttons") quotedPayload "x,y".toList
  refine ⟨hvalid, hnone, hcell, hwith Json.ofText? ?_ ?_, hparse hvalid hnone, by decide +kernel⟩
  · rw [hplain]
    exact hvalid
  · rw [hdouble]
    exact hnone

end RichContent

end DialogTable
