import DialogTable.Json
import DialogTable.Proofs.Text.Parts
import Mathlib.Data.List.Induction

/-!
# Blanks around a JSON text

The white space of JSON is part of the blank characters. Around a text with tokens only white space
of JSON can stand (`exists_spaces_of_tokenize`), and it does not change the tokens
(`tokenize_between`).
-/

namespace DialogTable.Json

/-! ### Blanks in the lexer -/

section Blank

variable {c : Char}

theorem isBlank_of_isSpace (h : Token.isSpace c = true) : Text.isBlank c = true := by
  simp only [Token.isSpace, Bool.or_eq_true, decide_eq_true_eq] at h
  rcases h with ((rfl | rfl) | rfl) | rfl
  · decide
  · decide
  · decide
  · decide

/-- No character that a token may hold outside of quotes is blank. -/
theorem toNat_of_isBlank (h : Text.isBlank c = true) : c.toNat ≤ 32 ∨ 133 ≤ c.toNat := by
  simp only [Text.isBlank, Text.blankRanges, List.any_cons, List.any_nil, Bool.or_false,
    Bool.or_eq_true, Bool.and_eq_true, decide_eq_true_eq] at h
  omega

theorem ne_of_isBlank {d : Char} (h : Text.isBlank c = true) (hd : Text.isBlank d = false) :
    c ≠ d := by
  rintro rfl
  exact Bool.false_ne_true (hd.symm.trans h)

theorem isAlphanum_of_isBlank (h : Text.isBlank c = true) : c.isAlphanum = false := by
  have hrange := toNat_of_isBlank h
  by_contra halphanum
  rw [Bool.not_eq_false] at halphanum
  delta Char.isAlphanum Char.isAlpha Char.isUpper Char.isLower Char.isDigit at halphanum
  simp only [Bool.or_eq_true, Bool.and_eq_true, decide_eq_true_eq, ge_iff_le,
    UInt32.le_iff_toNat_le] at halphanum
  change (65 ≤ c.toNat ∧ c.toNat ≤ 90 ∨ 97 ≤ c.toNat ∧ c.toNat ≤ 122) ∨
    48 ≤ c.toNat ∧ c.toNat ≤ 57 at halphanum
  omega

theorem isWordChar_of_isBlank (h : Text.isBlank c = true) : Token.isWordChar c = false := by
  have hplus : c ≠ '+' := ne_of_isBlank h (by decide)
  have hminus : c ≠ '-' := ne_of_isBlank h (by decide)
  have hpoint : c ≠ '.' := ne_of_isBlank h (by decide)
  simp [Token.isWordChar, isAlphanum_of_isBlank h, hplus, hminus, hpoint]

theorem ofMark_of_isBlank (h : Text.isBlank c = true) : Token.ofMark c = none := by
  unfold Token.ofMark
  split
  all_goals first | rfl | exact absurd h (by decide)

theorem ofEscape_of_isBlank (h : Text.isBlank c = true) : Token.ofEscape c = none := by
  unfold Token.ofEscape
  split
  all_goals first | rfl | exact absurd h (by decide)

theorem hexValue_of_isBlank (h : Text.isBlank c = true) : Text.hexValue c = none := by
  have hrange := toNat_of_isBlank h
  have hout {low high : Char} (hlow : 33 ≤ low.toNat) (hhigh : high.toNat ≤ 132) :
      ¬ (low ≤ c ∧ c ≤ high) := by
    rintro ⟨h1, h2⟩
    have h1 : low.toNat ≤ c.toNat := h1
    have h2 : c.toNat ≤ high.toNat := h2
    omega
  rw [Text.hexValue, if_neg (hout (by decide) (by decide)), if_neg (hout (by decide) (by decide)),
    if_neg (hout (by decide) (by decide))]

end Blank

namespace Lexer

/-- Between tokens a blank is passed over if it is white space of JSON, and refused else. -/
theorem start_of_isBlank {c : Char} (h : Text.isBlank c = true) (tokens : List Token) :
    start tokens c = if Token.isSpace c then some { tokens } else none := by
  have hquote : c ≠ '"' := ne_of_isBlank h (by decide)
  simp [start, hquote, isWordChar_of_isBlank h, ofMark_of_isBlank h]

/-- A blank at the end of a text ends the last token. Inside of quotes nothing ends well. -/
theorem finish_step_of_isBlank {c : Char} (h : Text.isBlank c = true) (lexer : Lexer) :
    (lexer.step c).bind finish = if Token.isSpace c then lexer.finish else none := by
  obtain ⟨tokens, mode⟩ := lexer
  cases mode with
  | between =>
    show (start tokens c).bind finish = _
    rw [start_of_isBlank h]
    split
    · rfl
    · rfl
  | word chars =>
    cases hword : Token.ofWord chars.reverse with
    | none => simp [step, finish, isWordChar_of_isBlank h, hword]
    | some token =>
      simp only [step, finish, isWordChar_of_isBlank h, hword, Bool.false_eq_true, if_false,
        Option.bind_some, start_of_isBlank h]
      split
      · rfl
      · rfl
  | quoted units =>
    have hquote : c ≠ '"' := ne_of_isBlank h (by decide)
    have hescape : c ≠ '\\' := ne_of_isBlank h (by decide)
    by_cases hcontrol : c.toNat < 0x20
    · simp [step, hquote, hescape, hcontrol, finish]
    · simp [step, hquote, hescape, hcontrol, finish]
  | escape units =>
    have hu : c ≠ 'u' := ne_of_isBlank h (by decide)
    simp [step, hu, ofEscape_of_isBlank h, finish]
  | codeUnit units missing value => simp [step, hexValue_of_isBlank h, finish]

end Lexer

/-! ### Tokens -/

theorem tokenize_cons_of_isBlank {c : Char} (h : Text.isBlank c = true) (rest : List Char) :
    tokenize (c :: rest) = if Token.isSpace c then tokenize rest else none := by
  have hstep : Lexer.step {} c = if Token.isSpace c then some {} else none :=
    Lexer.start_of_isBlank h []
  rw [tokenize, List.foldlM_cons, hstep]
  split
  · rfl
  · rfl

theorem tokenize_concat_of_isBlank {c : Char} (h : Text.isBlank c = true) (init : List Char) :
    tokenize (init ++ [c]) = if Token.isSpace c then tokenize init else none := by
  rw [tokenize, tokenize, List.foldlM_append]
  cases hfold : init.foldlM Lexer.step {} with
  | none => simp
  | some lexer =>
    show (Lexer.step lexer c >>= pure).bind Lexer.finish = _
    rw [bind_pure]
    exact Lexer.finish_step_of_isBlank h lexer

theorem tokenize_spaces_append {before : List Char} (h : ∀ c ∈ before, Token.isSpace c = true)
    (text : List Char) : tokenize (before ++ text) = tokenize text := by
  induction before with
  | nil => rfl
  | cons c rest ih =>
    obtain ⟨hc, hrest⟩ := List.forall_mem_cons.1 h
    rw [List.cons_append, tokenize_cons_of_isBlank (isBlank_of_isSpace hc), if_pos hc, ih hrest]

theorem tokenize_append_spaces {after : List Char} (h : ∀ c ∈ after, Token.isSpace c = true)
    (text : List Char) : tokenize (text ++ after) = tokenize text := by
  induction after generalizing text with
  | nil => rw [List.append_nil]
  | cons c rest ih =>
    obtain ⟨hc, hrest⟩ := List.forall_mem_cons.1 h
    rw [List.append_cons, ih hrest, tokenize_concat_of_isBlank (isBlank_of_isSpace hc), if_pos hc]

/-- White space of JSON around a text does not change its tokens. -/
theorem tokenize_between {before after : List Char} (hbefore : ∀ c ∈ before, Token.isSpace c = true)
    (hafter : ∀ c ∈ after, Token.isSpace c = true) (text : List Char) :
    tokenize (before ++ (text ++ after)) = tokenize text := by
  rw [tokenize_spaces_append hbefore, tokenize_append_spaces hafter]

/-- Blanks in front of a text with tokens are white space of JSON. -/
theorem isSpace_of_tokenize_append {before text : List Char}
    (hblank : ∀ c ∈ before, Text.isBlank c = true) (h : (tokenize (before ++ text)).isSome) :
    ∀ c ∈ before, Token.isSpace c = true := by
  induction before with
  | nil => exact nofun
  | cons c rest ih =>
    obtain ⟨hc, hrest⟩ := List.forall_mem_cons.1 hblank
    rw [List.cons_append, tokenize_cons_of_isBlank hc] at h
    by_cases hspace : Token.isSpace c = true
    · rw [if_pos hspace] at h
      exact List.forall_mem_cons.2 ⟨hspace, ih hrest h⟩
    · simp [hspace] at h

/-- Blanks behind a text with tokens are white space of JSON. -/
theorem isSpace_of_append_tokenize {text after : List Char}
    (hblank : ∀ c ∈ after, Text.isBlank c = true) (h : (tokenize (text ++ after)).isSome) :
    ∀ c ∈ after, Token.isSpace c = true := by
  -- The blanks are taken off from the end, where the tokens end.
  induction after using List.reverseRecOn with
  | nil => exact nofun
  | append_singleton rest c ih =>
    obtain ⟨hrest, hc⟩ := List.forall_mem_append.1 hblank
    have hc : Text.isBlank c = true := hc c List.mem_cons_self
    rw [← List.append_assoc, tokenize_concat_of_isBlank hc] at h
    by_cases hspace : Token.isSpace c = true
    · rw [if_pos hspace] at h
      exact List.forall_mem_append.2 ⟨ih hrest h, by simpa using hspace⟩
    · simp [hspace] at h

/-- What trimming takes off a text with tokens is white space of JSON. -/
theorem exists_spaces_of_tokenize {text : List Char} (h : (tokenize text).isSome) :
    ∃ before after, text = before ++ (Text.trim text ++ after) ∧
      (∀ c ∈ before, Token.isSpace c = true) ∧ ∀ c ∈ after, Token.isSpace c = true := by
  obtain ⟨before, after, htext, hbefore, hafter⟩ := Text.exists_blanks_trim text
  refine ⟨before, after, htext, ?_, ?_⟩
  · rw [htext] at h
    exact isSpace_of_tokenize_append hbefore h
  · rw [htext, ← List.append_assoc] at h
    exact isSpace_of_append_tokenize hafter h

/-! ### Values -/

theorem ofText?_congr {a b : String} (h : tokenize a.toList = tokenize b.toList) :
    ofText? a = ofText? b := by
  simp only [ofText?, Document.ofText?, h]

theorem tokenize_isSome_of_ofText? {text : String} (h : (ofText? text).isSome) :
    (tokenize text.toList).isSome := by
  by_contra hnone
  rw [Option.not_isSome_iff_eq_none] at hnone
  simp [ofText?, Document.ofText?, hnone] at h

end DialogTable.Json
