import Mathlib.Data.List.Forall2
import DialogTable.Json.Printer
import DialogTable.Proofs.Text.Numeral

/-!
# Printed JSON is read again

The lexer finds the tokens that a printed value is made of: a text between quotes whatever its
characters (`reads_printString`), an integer within 64 bits up to the character behind it
(`readsBefore_toString`), lines between brackets, indented (`reads_indentBlock`) or not
(`reads_block`). The reader takes a list of such tokens for a list of documents
(`foldlM_step_array`).
-/

namespace DialogTable.Json

/-! ### Integers -/

/-- The numeral of an integer. -/
def Numeral.ofInt (n : Int) : Numeral :=
  { negative := n < 0, whole := Nat.toDigits 10 n.natAbs, fraction := none, exponent := none }

theorem head?_toDigits_ne {n : Nat} (h : 0 < n) : (Nat.toDigits 10 n).head? ≠ some '0' := by
  induction n using Nat.strong_induction_on with
  | _ n ih =>
    by_cases hlt : n < 10
    · rw [Nat.toDigits_of_lt_base hlt]
      have hdigit : ∀ d < 10, 0 < d → [Nat.digitChar d].head? ≠ some '0' := by decide
      exact hdigit n hlt h
    · rw [Nat.toDigits_of_base_le (by decide) (Nat.le_of_not_lt hlt),
        List.head?_append_of_ne_nil _ Nat.toDigits_ne_nil]
      exact ih (n / 10) (by omega) (by omega)

theorem isWhole_toDigits (n : Nat) : Numeral.isWhole (Nat.toDigits 10 n) = true := by
  rcases Nat.eq_zero_or_pos n with rfl | hpos
  · decide
  · have hhead := head?_toDigits_ne hpos
    have hall : ∀ c ∈ Nat.toDigits 10 n, Text.isDigit c = true :=
      fun _ => Text.isDigit_of_mem_toDigits
    have hne : Nat.toDigits 10 n ≠ [] := Nat.toDigits_ne_nil
    generalize Nat.toDigits 10 n = digits at hhead hall hne
    cases digits with
    | nil => exact absurd rfl hne
    | cons c rest =>
      have hc : c ≠ '0' := fun heq => hhead (congrArg some heq)
      unfold Numeral.isWhole
      split
      · next heq => cases heq
      · rfl
      · next heq =>
        obtain ⟨rfl, rfl⟩ := List.cons.inj heq
        simp [hc, List.all_eq_true.2 hall]

theorem readUnsigned_toDigits (negative : Bool) (n : Nat) :
    Numeral.readUnsigned negative (Nat.toDigits 10 n) =
      some { negative, whole := Nat.toDigits 10 n, fraction := none, exponent := none } := by
  have hmark : ∀ c ∈ Nat.toDigits 10 n, (!(decide (c = 'e') || decide (c = 'E'))) = true := by
    rintro c hc
    have hdigit := Text.isDigit_of_mem_toDigits hc
    by_cases he : c = 'e' ∨ c = 'E'
    · rcases he with rfl | rfl <;> cases hdigit
    · simpa using he
  have hpoint : ∀ c ∈ Nat.toDigits 10 n, decide (c ≠ '.') = true := by
    rintro c hc
    refine decide_eq_true ?_
    rintro rfl
    cases Text.isDigit_of_mem_toDigits hc
  simp only [Numeral.readUnsigned, List.takeWhile_eq_self_iff.2 hmark,
    List.dropWhile_eq_nil_iff.2 hmark, List.takeWhile_eq_self_iff.2 hpoint,
    List.dropWhile_eq_nil_iff.2 hpoint, isWhole_toDigits, if_true]
  rfl

theorem read_toString (n : Int) : Numeral.read (toString n).toList = some (.ofInt n) := by
  rw [Text.toList_toString]
  split
  · next hn =>
    have hread := readUnsigned_toDigits false n.toNat
    have hne : Nat.toDigits 10 n.toNat ≠ [] := Nat.toDigits_ne_nil
    have hminus : '-' ∉ Nat.toDigits 10 n.toNat := fun hc => by
      cases Text.isDigit_of_mem_toDigits hc
    have hsame : n.natAbs = n.toNat := by omega
    rw [Numeral.ofInt, hsame, decide_eq_false (Int.not_lt.2 hn), ← hread]
    unfold Numeral.read
    split
    · next heq => exact absurd (heq ▸ List.mem_cons_self) hminus
    · rfl
  · next hn =>
    have hsame : n.natAbs = (-n).toNat := by omega
    rw [Numeral.ofInt, hsame, decide_eq_true (Int.not_le.1 hn)]
    exact readUnsigned_toDigits true (-n).toNat

theorem value_ofInt {n : Int} (h : Text.InRange64 n) : (Numeral.ofInt n).value = some (.int n) := by
  have hdigits : Text.digitsValue (Numeral.ofInt n).whole = n.natAbs := by
    rw [Text.digitsValue_eq, Numeral.ofInt, Nat.ofDigitChars_ten_toDigits]
  obtain ⟨hlow, hhigh⟩ := h
  unfold Numeral.value
  rw [hdigits]
  by_cases hn : n < 0
  · have hneg : (Numeral.ofInt n).negative = true := decide_eq_true hn
    have hrange : 0 < (n.natAbs : Int) ∧ Text.InRange64 (-(n.natAbs : Int)) :=
      ⟨by omega, by omega, by omega⟩
    simp only [hneg, if_true]
    rw [if_pos ⟨rfl, rfl, hrange⟩]
    exact congrArg (some ∘ Number.int) (by omega)
  · have hpos : (Numeral.ofInt n).negative = false := decide_eq_false hn
    have hrange : (n.natAbs : Int) < Text.countLimit := by
      rw [Text.countLimit]
      omega
    simp only [hpos, Bool.false_eq_true, if_false]
    rw [if_pos ⟨rfl, rfl, hrange⟩]
    exact congrArg (some ∘ Number.int) (by omega)

/-! ### Quoted texts -/

theorem hexValue_hexDigit (n : Nat) : Text.hexValue (Text.hexDigit n) = some (n % 16) := by
  have hdigit : ∀ d < 16, Text.hexValue (Nat.digitChar d) = some d := by decide
  exact hdigit (n % 16) (Nat.mod_lt n (by decide))

theorem foldlM_step_hexDigits (tokens : List Token) (units : List TextUnit) {n : Nat}
    (h : n < 65536) :
    (Text.hexDigits 4 n Text.hexDigit).foldlM Lexer.step
        { tokens, mode := .codeUnit units 4 0 } =
      some { tokens, mode := .quoted (.codeUnit n :: units) } := by
  have hvalue : 16 * (16 * (16 * (16 * 0 + n / 16 / 16 / 16 % 16 % 16) + n / 16 / 16 % 16 % 16) +
      n / 16 % 16 % 16) + n % 16 % 16 = n := by omega
  conv_rhs => rw [← hvalue]
  simp [Text.hexDigits, Lexer.step, hexValue_hexDigit]

/-- What stands for a character inside of quotes is one unit of the text. -/
theorem foldlM_step_escapeChar (tokens : List Token) (units : List TextUnit) (c : Char) :
    ∃ unit, (escapeChar c).foldlM Lexer.step { tokens, mode := .quoted units } =
        some { tokens, mode := .quoted (unit :: units) } ∧
      ∀ rest, decodeUnit unit (rest, none) = some (c :: rest, none) := by
  unfold escapeChar
  split
  · exact ⟨.char '"', rfl, fun _ => rfl⟩
  · exact ⟨.char '\\', rfl, fun _ => rfl⟩
  · exact ⟨.char '\x08', rfl, fun _ => rfl⟩
  · exact ⟨.char '\x0c', rfl, fun _ => rfl⟩
  · exact ⟨.char '\n', rfl, fun _ => rfl⟩
  · exact ⟨.char '\r', rfl, fun _ => rfl⟩
  · exact ⟨.char '\t', rfl, fun _ => rfl⟩
  · next hquote hslash _ _ _ _ _ =>
    by_cases hcontrol : c.toNat < 0x20
    · rw [if_pos hcontrol]
      refine ⟨.codeUnit c.toNat, foldlM_step_hexDigits tokens units (by omega), fun rest => ?_⟩
      have hhigh : isHighSurrogate c.toNat = false := by
        simp only [isHighSurrogate, Bool.and_eq_false_iff, decide_eq_false_iff_not]
        omega
      have hlow : isLowSurrogate c.toNat = false := by
        simp only [isLowSurrogate, Bool.and_eq_false_iff, decide_eq_false_iff_not]
        omega
      simp only [decodeUnit, hhigh, hlow, Bool.false_eq_true, if_false, Char.ofNat_toNat]
    · rw [if_neg hcontrol]
      refine ⟨.char c, ?_, fun _ => rfl⟩
      have hquote : ¬ c = '"' := hquote
      have hslash : ¬ c = '\\' := hslash
      simp only [List.foldlM_cons, List.foldlM_nil, Lexer.step, if_neg hquote, if_neg hslash,
        if_neg hcontrol]
      rfl

/-! ### Texts between tokens -/

/-- Between tokens a text is read as these tokens, whatever stands before it. -/
def Reads (text : List Char) (tokens : List Token) : Prop :=
  ∀ before, text.foldlM Lexer.step { tokens := before } =
    some { tokens := tokens.reverse ++ before }

theorem reads_nil : Reads [] [] :=
  fun _ => rfl

theorem Reads.append {text more : List Char} {tokens later : List Token} (h : Reads text tokens)
    (hmore : Reads more later) : Reads (text ++ more) (tokens ++ later) := by
  intro before
  rw [List.foldlM_append, h before, Option.bind_eq_bind, Option.bind_some, hmore,
    List.reverse_append, List.append_assoc]

theorem Reads.tokenize {text : List Char} {tokens : List Token} (h : Reads text tokens) :
    tokenize text = some tokens := by
  rw [Json.tokenize, h [], Option.bind_some, List.append_nil, Lexer.finish, List.reverse_reverse]

theorem reads_space {c : Char} (h : Token.isSpace c = true) : Reads [c] [] := by
  intro before
  rw [List.foldlM_cons, Lexer.step, Lexer.start, if_pos h]
  rfl

theorem decodeUnits_cons {unit : TextUnit} {units : List TextUnit} {c : Char} {text : List Char}
    (hunit : ∀ rest, decodeUnit unit (rest, none) = some (c :: rest, none))
    (h : decodeUnits units = some text) : decodeUnits (unit :: units) = some (c :: text) := by
  unfold decodeUnits at h
  split at h
  · next hfold =>
    rw [decodeUnits, List.foldr_cons, hfold, Option.bind_some, hunit, Option.some.inj h]
  · cases h

theorem foldlM_step_flatMap_escapeChar (tokens : List Token) (units : List TextUnit)
    (text : List Char) :
    ∃ more, (text.flatMap escapeChar).foldlM Lexer.step { tokens, mode := .quoted units } =
        some { tokens, mode := .quoted (more.reverse ++ units) } ∧
      decodeUnits more = some text := by
  induction text generalizing units with
  | nil => exact ⟨[], rfl, rfl⟩
  | cons c text ih =>
    obtain ⟨unit, hstep, hunit⟩ := foldlM_step_escapeChar tokens units c
    obtain ⟨more, hmore, htext⟩ := ih (unit :: units)
    refine ⟨unit :: more, ?_, decodeUnits_cons hunit htext⟩
    rw [List.flatMap_cons, List.foldlM_append, hstep, Option.bind_eq_bind, Option.bind_some, hmore,
      List.reverse_cons, List.append_assoc]
    rfl

theorem reads_printString (text : String) :
    Reads (printString text).toList [.quoted (some text)] := by
  intro before
  obtain ⟨units, hfold, hunits⟩ := foldlM_step_flatMap_escapeChar before [] text.toList
  have hopen : Lexer.step { tokens := before } '"' =
      some { tokens := before, mode := .quoted [] } := rfl
  rw [printString, String.toList_ofList, List.cons_append, List.foldlM_cons, hopen,
    Option.bind_eq_bind, Option.bind_some, List.foldlM_append, hfold, Option.bind_eq_bind,
    Option.bind_some, List.append_nil]
  simp [Lexer.step, hunits]

/-- As `Reads`, before a character that is no part of a word: it ends a number. -/
def ReadsBefore (text : List Char) (tokens : List Token) : Prop :=
  ∀ c, Token.isWordChar c = false → ∀ rest later, Reads (c :: rest) later →
    Reads (text ++ c :: rest) (tokens ++ later)

theorem Reads.before {text : List Char} {tokens : List Token} (h : Reads text tokens) :
    ReadsBefore text tokens :=
  fun _ _ _ _ hrest => h.append hrest

/-- A text in front of one that ends in a number. -/
theorem Reads.append_before {text more : List Char} {tokens later : List Token}
    (h : Reads text tokens) (hmore : ReadsBefore more later) :
    ReadsBefore (text ++ more) (tokens ++ later) := by
  intro c hc rest last hrest
  rw [List.append_assoc, List.append_assoc]
  exact h.append (hmore c hc rest last hrest)

theorem isWordChar_of_isNumeral {c : Char} (h : Text.IsNumeral c) : Token.isWordChar c = true := by
  rcases h with hdigit | rfl
  · have halphanum : c.isAlphanum = true := by
      rw [Char.isAlphanum, show c.isDigit = true from hdigit, Bool.or_true]
    rw [Token.isWordChar, halphanum]
    rfl
  · rfl

theorem foldlM_step_word (tokens : List Token) (chars : List Char) {text : List Char}
    (h : ∀ c ∈ text, Token.isWordChar c = true) :
    text.foldlM Lexer.step { tokens, mode := .word chars } =
      some { tokens, mode := .word (text.reverse ++ chars) } := by
  induction text generalizing chars with
  | nil => rfl
  | cons c text ih =>
    obtain ⟨hc, htext⟩ := List.forall_mem_cons.1 h
    have hstep : Lexer.step { tokens, mode := .word chars } c =
        some { tokens, mode := .word (c :: chars) } := if_pos hc
    rw [List.foldlM_cons, hstep, Option.bind_eq_bind, Option.bind_some, ih _ htext,
      List.reverse_cons, List.append_assoc]
    rfl

theorem ofWord_toString (n : Int) :
    Token.ofWord (toString n).toList = some (.number (.ofInt n)) := by
  have hne : ∀ word : List Char, (∃ c ∈ word, ¬ Text.IsNumeral c) → (toString n).toList ≠ word := by
    rintro word ⟨c, hc, hnumeral⟩ heq
    exact hnumeral (Text.isNumeral_of_mem_toString (heq ▸ hc))
  rw [Token.ofWord, if_neg (hne _ ⟨'n', by decide, by decide⟩),
    if_neg (hne _ ⟨'t', by decide, by decide⟩), if_neg (hne _ ⟨'f', by decide, by decide⟩),
    read_toString, Option.map_some]

theorem start_of_isWordChar {c : Char} (h : Token.isWordChar c = true) (tokens : List Token) :
    Lexer.start tokens c = some { tokens, mode := .word [c] } := by
  have hspace : Token.isSpace c ≠ true := by
    intro hspace
    simp only [Token.isSpace, Bool.or_eq_true, decide_eq_true_eq] at hspace
    rcases hspace with ((rfl | rfl) | rfl) | rfl <;> exact absurd h (by decide)
  have hquote : c ≠ '"' := by
    rintro rfl
    exact absurd h (by decide)
  rw [Lexer.start, if_neg hspace, if_neg hquote, if_pos h]

theorem readsBefore_toString (n : Int) :
    ReadsBefore (toString n).toList [.number (.ofInt n)] := by
  intro c hc rest later hrest before
  have hword : ∀ d ∈ (toString n).toList, Token.isWordChar d = true :=
    fun _ hd => isWordChar_of_isNumeral (Text.isNumeral_of_mem_toString hd)
  have hread := ofWord_toString n
  obtain ⟨first, text, htext⟩ := List.exists_cons_of_ne_nil (Text.toString_ne_nil n)
  rw [htext] at hword hread ⊢
  obtain ⟨hfirst, hmore⟩ := List.forall_mem_cons.1 hword
  have hbegin : Lexer.step { tokens := before } first =
      some { tokens := before, mode := .word [first] } := start_of_isWordChar hfirst before
  have hchars : (text.reverse ++ [first]).reverse = first :: text := by
    rw [List.reverse_append, List.reverse_reverse]
    rfl
  -- The character behind the number is read as if the number were complete.
  have hend : Lexer.step { tokens := before, mode := .word (text.reverse ++ [first]) } c =
      Lexer.step { tokens := .number (.ofInt n) :: before } c := by
    have hother : ¬ Token.isWordChar c = true := by
      rw [hc]
      exact Bool.false_ne_true
    refine (if_neg hother).trans ?_
    rw [hchars, hread]
    rfl
  have hafter := hrest (.number (.ofInt n) :: before)
  rw [List.foldlM_cons] at hafter
  rw [List.cons_append, List.foldlM_cons, hbegin, Option.bind_eq_bind, Option.bind_some,
    List.foldlM_append, foldlM_step_word _ _ hmore, Option.bind_eq_bind, Option.bind_some,
    List.foldlM_cons, hend, hafter, List.reverse_append, List.append_assoc]
  rfl

theorem reads_mark {c : Char} {token : Token} (h : Token.ofMark c = some token) :
    Reads [c] [token] := by
  intro before
  unfold Token.ofMark at h
  split at h
  all_goals cases h <;> rfl

/-! ### Compact lists -/

theorem reads_intercalate {texts : List (List Char)} {tokens : List (List Token)}
    (h : List.Forall₂ Reads texts tokens) :
    Reads ([','].intercalate texts) ([.comma].intercalate tokens) := by
  induction h with
  | nil => exact reads_nil
  | @cons text own texts tokens htext htexts ih =>
    cases htexts with
    | nil =>
      rw [List.intercalate_singleton, List.intercalate_singleton]
      exact htext
    | cons hnext hrest =>
      rw [List.intercalate_cons_cons, List.intercalate_cons_cons]
      exact (htext.append (reads_mark rfl)).append ih

/-- A compact list between brackets. -/
theorem reads_block {opening closing : String} {first last : Token}
    (hopening : Reads opening.toList [first]) (hclosing : Reads closing.toList [last])
    {texts : List String} {tokens : List (List Token)}
    (h : List.Forall₂ (fun text own => Reads text.toList own) texts tokens) :
    Reads (opening ++ ",".intercalate texts ++ closing).toList
      (first :: ([.comma].intercalate tokens ++ [last])) := by
  have hinner := reads_intercalate (List.forall₂_map_left_iff.2 h)
  rw [String.toList_append, String.toList_append, String.toList_intercalate]
  exact (hopening.append hinner).append hclosing

theorem reads_member {value : String} {own : List Token} (h : Reads value.toList own)
    (key : String) :
    Reads (printString key ++ ":" ++ value).toList (.quoted key :: .colon :: own) := by
  have hcolon : Reads (String.toList ":") [.colon] := reads_mark rfl
  rw [String.toList_append, String.toList_append]
  exact ((reads_printString key).append hcolon).append h

/-! ### Indented lines -/

theorem reads_spaces (count : Nat) : Reads (List.replicate count ' ') [] := by
  induction count with
  | zero => exact reads_nil
  | succ count ih => exact (reads_space (c := ' ') rfl).append ih

theorem reads_newline (count : Nat) : Reads ('\n' :: List.replicate count ' ') [] :=
  (reads_space (c := '\n') rfl).append (reads_spaces count)

/-- Lines behind an opening bracket, with commas between them. -/
theorem reads_lines {lines : List (List Char)} {tokens : List (List Token)}
    (h : List.Forall₂ ReadsBefore lines tokens) (hne : lines ≠ []) {start : List Char}
    (hstart : Reads start []) {rest : List Char} {later : List Token}
    (hrest : Reads ('\n' :: rest) later) :
    Reads ([','].intercalate (lines.map (start ++ ·)) ++ '\n' :: rest)
      ([.comma].intercalate tokens ++ later) := by
  induction h with
  | nil => exact absurd rfl hne
  | @cons line own lines tokens hline hlines ih =>
    cases hlines with
    | nil =>
      rw [List.map_singleton, List.intercalate_singleton, List.intercalate_singleton,
        List.append_assoc]
      exact hstart.append (hline '\n' rfl _ _ hrest)
    | cons hnext hlines =>
      have hcomma := (reads_mark (c := ',') rfl).append (ih (List.cons_ne_nil _ _))
      rw [List.map_cons, List.map_cons, List.intercalate_cons_cons, List.intercalate_cons_cons]
      simp only [List.append_assoc]
      exact hstart.append (hline ',' rfl _ _ hcomma)

/-- Indented lines between brackets. -/
theorem reads_indentBlock {opening closing : String} {first last : Token}
    (hopening : Reads opening.toList [first]) (hclosing : Reads closing.toList [last])
    (level : Nat) {lines : List String} {tokens : List (List Token)}
    (h : List.Forall₂ (fun line own => ReadsBefore line.toList own) lines tokens) :
    Reads (indentBlock opening closing level lines).toList
      (first :: ([.comma].intercalate tokens ++ [last])) := by
  rw [indentBlock]
  split
  · next hnil =>
    subst hnil
    cases h
    rw [String.toList_append]
    exact hopening.append hclosing
  · next hne =>
    have hlines : List.Forall₂ ReadsBefore (lines.map String.toList) tokens :=
      List.forall₂_map_left_iff.2 h
    have hend : Reads ('\n' :: (List.replicate (2 * level) ' ' ++ closing.toList)) [last] :=
      (reads_newline (2 * level)).append hclosing
    have hinner := reads_lines hlines (by simpa using hne) (reads_newline (2 * (level + 1))) hend
    have hall := hopening.append hinner
    simp only [String.toList_append, String.toList_intercalate, List.map_map, String.toList_ofList,
      Function.comp_def, List.append_assoc, List.cons_append] at hall ⊢
    exact hall

/-! ### Documents of lists -/

section Items

variable {α : Type} {tokens : α → List Token} {document : α → Document} {stack : List Frame}

/-- Items behind others, up to the end of an array. -/
theorem foldlM_step_items
    (h : ∀ items x, (tokens x).foldlM Reader.step (.value (.array items :: stack)) =
      some (.after (document x) (.array items :: stack))) (items : List Document) (x : α)
    (rest : List α) :
    ([Token.comma].intercalate ((x :: rest).map tokens) ++ [Token.closeBracket]).foldlM Reader.step
        (.value (.array items :: stack)) =
      some (.after (.array (items.reverse ++ (x :: rest).map document)) stack) := by
  induction rest generalizing items x with
  | nil =>
    rw [List.map_singleton, List.intercalate_singleton, List.foldlM_append, h, List.map_singleton,
      ← List.reverse_cons]
    rfl
  | cons next rest ih =>
    rw [List.map_cons, List.map_cons, List.intercalate_cons_cons, List.append_assoc,
      List.append_assoc, List.foldlM_append, h, List.map_cons]
    have hrest := ih (document x :: items) next
    rw [List.reverse_cons, List.append_assoc] at hrest
    exact hrest

/-- The first item of an array is read like one behind a comma. -/
theorem foldlM_step_array
    (h : ∀ items x, (tokens x).foldlM Reader.step (.value (.array items :: stack)) =
      some (.after (document x) (.array items :: stack)))
    (hfirst : ∀ x, ∃ first more, tokens x = first :: more ∧ first ≠ .closeBracket) (xs : List α) :
    ([Token.comma].intercalate (xs.map tokens) ++ [Token.closeBracket]).foldlM Reader.step
        (.itemOrEnd stack) = some (.after (.array (xs.map document)) stack) := by
  cases xs with
  | nil => rfl
  | cons x rest =>
    have hitems := foldlM_step_items h [] x rest
    obtain ⟨first, more, htokens, hne⟩ := hfirst x
    obtain ⟨later, hlater⟩ : ∃ later, [Token.comma].intercalate ((x :: rest).map tokens) ++
        [Token.closeBracket] = first :: later := by
      cases rest with
      | nil => exact ⟨_, by rw [List.map_singleton, List.intercalate_singleton, htokens]; rfl⟩
      | cons next rest =>
        exact ⟨_, by rw [List.map_cons, List.map_cons, List.intercalate_cons_cons, htokens]; rfl⟩
    have hstep : Reader.step (.itemOrEnd stack) first =
        Reader.step (.value (.array [] :: stack)) first := by
      cases first with
      | closeBracket => exact absurd rfl hne
      | _ => rfl
    rw [hlater, List.foldlM_cons] at hitems ⊢
    rw [hstep]
    exact hitems

end Items

end DialogTable.Json
