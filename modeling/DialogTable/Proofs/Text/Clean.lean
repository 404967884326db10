import DialogTable.Text.Clean
import DialogTable.Proofs.Text.Numeral

/-!
# Clean texts

Cleaning leaves a text alone exactly if it keeps each of its characters (`clean_eq_self_iff`). What
cleaning gives holds such characters only, so that a second cleaning finds nothing (`clean_clean`).

What is counted accounts for every character. A carriage return right before a line feed makes one
line end together with it; apart from the second character of these pairs and from what is dropped,
each character of a text stands for one of the cleaned text. The main statement is
`clean_normalizes`.
-/

namespace DialogTable.Text

/-- The characters that cleaning leaves alone. -/
def IsKept (c : Char) : Prop :=
  c ≠ '\r' ∧ c ≠ hardSpace ∧ isDropped c = false

instance (c : Char) : Decidable (IsKept c) :=
  inferInstanceAs (Decidable (_ ∧ _))

/-- A text in which cleaning finds nothing to change. -/
def IsClean (text : List Char) : Prop :=
  ∀ c ∈ text, IsKept c

instance (text : List Char) : Decidable (IsClean text) :=
  List.decidableBAll IsKept text

theorem cons_of_isKept {c : Char} (h : IsKept c) (beforeFeed : Bool) (rest : Cleaned) :
    rest.cons c beforeFeed = { rest with text := c :: rest.text } := by
  rw [Cleaned.cons, if_neg h.1, if_neg h.2.1, h.2.2, if_neg Bool.false_ne_true]

/-- A character that is not kept is counted. -/
theorem isKept_of_cons {c : Char} {beforeFeed : Bool} {rest : Cleaned}
    (h : (rest.cons c beforeFeed).changed = false) : IsKept c := by
  rw [Cleaned.changed, decide_eq_false_iff_not, Nat.pos_iff_ne_zero, not_not] at h
  rw [Cleaned.cons] at h
  split at h
  · dsimp only at h
    omega
  · next hreturn =>
    split at h
    · dsimp only at h
      omega
    · next hspace =>
      split at h
      · dsimp only at h
        omega
      · next hdropped => exact ⟨hreturn, hspace, Bool.eq_false_iff.2 hdropped⟩

theorem clean_of_isClean {text : List Char} (h : IsClean text) : clean text = { text } := by
  induction text with
  | nil => rfl
  | cons c rest ih =>
    rw [clean_cons, cons_of_isKept (h c List.mem_cons_self),
      ih fun d hd => h d (List.mem_cons_of_mem c hd)]

/-- Cleaning reports nothing and returns the same text exactly for the clean texts. -/
theorem clean_eq_self_iff (text : List Char) : clean text = { text } ↔ IsClean text := by
  refine ⟨fun h => ?_, clean_of_isClean⟩
  induction text with
  | nil => exact fun _ hc => absurd hc List.not_mem_nil
  | cons c rest ih =>
    rw [clean_cons] at h
    have hkept : IsKept c := isKept_of_cons (by rw [h]; rfl)
    rw [cons_of_isKept hkept] at h
    have hrest : clean rest = { text := rest } := by
      cases hclean : clean rest with
      | mk found removed replaced lineEndings =>
        rw [hclean] at h
        cases h
        rfl
    exact List.forall_mem_cons.2 ⟨hkept, ih hrest⟩

theorem isClean_cons {c : Char} {beforeFeed : Bool} {rest : Cleaned} (h : IsClean rest.text) :
    IsClean (rest.cons c beforeFeed).text := by
  rw [Cleaned.cons]
  split
  · dsimp only
    split
    · exact h
    · exact List.forall_mem_cons.2 ⟨by decide, h⟩
  · next hreturn =>
    split
    · exact List.forall_mem_cons.2 ⟨by decide, h⟩
    · next hspace =>
      split
      · exact h
      · next hdropped =>
        exact List.forall_mem_cons.2 ⟨⟨hreturn, hspace, Bool.eq_false_iff.2 hdropped⟩, h⟩

/-- Cleaning makes any text clean. -/
theorem isClean_clean (text : List Char) : IsClean (clean text).text := by
  induction text with
  | nil => exact fun _ hc => absurd hc List.not_mem_nil
  | cons c rest ih =>
    rw [clean_cons]
    exact isClean_cons ih

theorem clean_clean (text : List Char) :
    clean (clean text).text = { text := (clean text).text } :=
  clean_of_isClean (isClean_clean text)

/-! ### Nothing changed -/

theorem isClean_of_not_changed {text : List Char} (h : (clean text).changed = false) :
    IsClean text := by
  induction text with
  | nil => exact fun _ hc => absurd hc List.not_mem_nil
  | cons c rest ih =>
    rw [clean_cons] at h
    have hkept : IsKept c := isKept_of_cons h
    rw [cons_of_isKept hkept] at h
    exact List.forall_mem_cons.2 ⟨hkept, ih h⟩

/-- The counts tell whether the text is the same. -/
theorem changed_clean_eq_false_iff (text : List Char) :
    (clean text).changed = false ↔ (clean text).text = text := by
  constructor
  · intro h
    rw [clean_of_isClean (isClean_of_not_changed h)]
  · intro h
    have hclean : IsClean text := h ▸ isClean_clean text
    rw [clean_of_isClean hclean]
    rfl

theorem Cleaned.describe_eq_none_iff (cleaned : Cleaned) :
    cleaned.describe = none ↔ cleaned.changed = false := by
  rw [describe]
  split
  · next h => simp [h]
  · next h => simp [h]

/-! ### Line ends of two characters -/

/-- The number of carriage returns right before a line feed. -/
def pairedEnds : List Char → Nat
  | '\r' :: '\n' :: rest => pairedEnds rest + 1
  | _ :: rest => pairedEnds rest
  | [] => 0

/-- A text without the carriage returns right before a line feed, and without these line feeds. -/
def withoutPairs : List Char → List Char
  | '\r' :: '\n' :: rest => withoutPairs rest
  | c :: rest => c :: withoutPairs rest
  | [] => []

theorem clean_pair (rest : List Char) :
    clean ('\r' :: '\n' :: rest) =
      { clean rest with
        text := '\n' :: (clean rest).text
        lineEndings := (clean rest).lineEndings + 1 } := by
  rw [clean_cons, clean_cons, cons_of_isKept (c := '\n') (by decide)]
  rfl

/-- A carriage return that no line feed follows is a line end by itself. -/
theorem clean_return {rest : List Char} (h : rest.head? ≠ some '\n') :
    clean ('\r' :: rest) =
      { clean rest with
        text := '\n' :: (clean rest).text
        lineEndings := (clean rest).lineEndings + 1 } := by
  rw [clean_cons, decide_eq_false h]
  rfl

/-- Any other character is kept, or becomes a space, or is dropped and counted. -/
theorem clean_cons_of_ne {c : Char} (h : c ≠ '\r') (rest : List Char) :
    (∃ d, (d = '\n' ↔ c = '\n') ∧ (clean (c :: rest)).text = d :: (clean rest).text ∧
        (clean (c :: rest)).removed = (clean rest).removed) ∨
      c ≠ '\n' ∧ (clean (c :: rest)).text = (clean rest).text ∧
        (clean (c :: rest)).removed = (clean rest).removed + 1 := by
  rw [clean_cons, Cleaned.cons, if_neg h]
  split
  · next hspace =>
    subst hspace
    exact .inl ⟨' ', by decide, rfl, rfl⟩
  · split
    · next hdropped =>
      refine .inr ⟨?_, rfl, rfl⟩
      rintro rfl
      revert hdropped
      decide
    · exact .inl ⟨c, Iff.rfl, rfl, rfl⟩

/-- No character is lost without being counted. -/
theorem length_clean (text : List Char) :
    text.length = (clean text).text.length + (clean text).removed + pairedEnds text := by
  fun_induction pairedEnds text with
  | case1 rest ih =>
    rw [clean_pair]
    simp only [List.length_cons]
    omega
  | case2 c rest hpair ih =>
    by_cases hreturn : c = '\r'
    · subst hreturn
      have hhead : rest.head? ≠ some '\n' := by
        intro hhead
        obtain ⟨tail, rfl⟩ := List.head?_eq_some_iff.1 hhead
        exact hpair tail rfl rfl
      rw [clean_return hhead]
      simp only [List.length_cons]
      omega
    · rw [List.length_cons]
      rcases clean_cons_of_ne hreturn rest with ⟨d, -, htext, hremoved⟩ | ⟨-, htext, hremoved⟩
      · rw [htext, hremoved, List.length_cons]
        omega
      · rw [htext, hremoved]
        omega
  | case3 => rfl

/-- Line feeds come from pairs, from other carriage returns and from other line feeds. -/
theorem count_lineFeed_clean (text : List Char) :
    (clean text).text.count '\n' = pairedEnds text + (withoutPairs text).count '\r' +
      (withoutPairs text).count '\n' := by
  fun_induction pairedEnds text with
  | case1 rest ih =>
    rw [clean_pair, withoutPairs, List.count_cons_self]
    omega
  | case2 c rest hpair ih =>
    rw [withoutPairs.eq_2 c rest hpair]
    by_cases hreturn : c = '\r'
    · subst hreturn
      have hhead : rest.head? ≠ some '\n' := by
        intro hhead
        obtain ⟨tail, rfl⟩ := List.head?_eq_some_iff.1 hhead
        exact hpair tail rfl rfl
      rw [clean_return hhead, List.count_cons_self, List.count_cons_self,
        List.count_cons_of_ne (by decide)]
      omega
    · rw [List.count_cons_of_ne hreturn]
      rcases clean_cons_of_ne hreturn rest with ⟨d, hfeed, htext, -⟩ | ⟨hfeed, htext, -⟩
      · rw [htext, List.count_cons, List.count_cons, ih]
        simp only [beq_iff_eq, hfeed]
        omega
      · rw [htext, List.count_cons_of_ne hfeed, ih]
  | case3 => rfl

/-! ### The normal form -/

/-- **Cleaning is an exact normal form.** What it gives has no carriage return, no non-breaking
space, no invisible character and no control character but tab and line feed, and cleaning it again
finds nothing. Something was counted, and is told in words, exactly if the text is another one. Each
character is in the cleaned text, was removed, or is the second one of a line end of two characters;
and each line feed stands for such a line end, or for a carriage return or line feed outside of
them. -/
theorem clean_normalizes (text : List Char) :
    let cleaned := clean text
    ('\r' ∉ cleaned.text ∧ hardSpace ∉ cleaned.text ∧ (∀ c ∈ invisible, c ∉ cleaned.text) ∧
      ∀ c ∈ cleaned.text, isControl c = true → c = '\t' ∨ c = '\n') ∧
    clean cleaned.text = { text := cleaned.text } ∧
    (cleaned.changed = false ↔ cleaned.text = text) ∧
    (cleaned.describe = none ↔ cleaned.text = text) ∧
    text.length = cleaned.text.length + cleaned.removed + pairedEnds text ∧
    cleaned.text.count '\n' = pairedEnds text + (withoutPairs text).count '\r' +
      (withoutPairs text).count '\n' := by
  intro cleaned
  have hkept : IsClean cleaned.text := isClean_clean text
  refine ⟨⟨fun h => (hkept _ h).1 rfl, fun h => (hkept _ h).2.1 rfl, ?_, ?_⟩, clean_clean text,
    changed_clean_eq_false_iff text, ?_, length_clean text, count_lineFeed_clean text⟩
  · intro c hinvisible h
    have hdropped := (hkept c h).2.2
    rw [isDropped, decide_eq_true hinvisible, Bool.true_or] at hdropped
    exact Bool.false_ne_true hdropped.symm
  · intro c h hcontrol
    obtain ⟨hreturn, -, hdropped⟩ := hkept c h
    rw [isDropped, Bool.or_eq_false_iff, hcontrol, Bool.true_and] at hdropped
    by_contra hother
    rw [not_or] at hother
    simp [hother, hreturn] at hdropped
  · rw [cleaned.describe_eq_none_iff, changed_clean_eq_false_iff]

example : (clean ['\r', '\r', '\n', '\r', '\u200B', '\n']).text = ['\n', '\n', '\n', '\n'] := by
  decide

/-! ### Digits -/

/-- Digits lie above the control characters and below all else that is changed. -/
theorem isKept_of_isDigit {c : Char} (h : isDigit c = true) : IsKept c := by
  rw [isDigit, Bool.and_eq_true, decide_eq_true_eq, decide_eq_true_eq] at h
  have hlow : 48 ≤ c.toNat := h.1
  have hhigh : c.toNat ≤ 57 := h.2
  have hne : ∀ d : Char, d.toNat < 48 ∨ 57 < d.toNat → c ≠ d := by
    rintro d hd rfl
    omega
  have hinvisible : invisible.all (57 < ·.toNat) = true := by decide
  refine ⟨hne '\r' (by decide), hne hardSpace (by decide), ?_⟩
  rw [isDropped, Bool.or_eq_false_iff, decide_eq_false_iff_not, isControl]
  refine ⟨fun hmem => ?_, ?_⟩
  · have hlt : 57 < c.toNat := of_decide_eq_true (List.all_eq_true.1 hinvisible c hmem)
    omega
  · have hcontrol :
        (decide (c.toNat ≤ 0x1F) || decide (0x7F ≤ c.toNat) && decide (c.toNat ≤ 0x9F)) = false := by
      simp only [Bool.or_eq_false_iff, Bool.and_eq_false_iff, decide_eq_false_iff_not]
      omega
    rw [hcontrol, Bool.false_and, Bool.false_and, Bool.false_and]

theorem isKept_of_isNumeral {c : Char} (h : IsNumeral c) : IsKept c := by
  rcases h with h | rfl
  · exact isKept_of_isDigit h
  · decide

end DialogTable.Text
