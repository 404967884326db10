import DialogTable.Text.Blank
import DialogTable.Text.Split
import Mathlib.Algebra.Ring.Nat
import Mathlib.Data.List.DropRight

/-!
# Taking written lists apart

A list is written with a separator between its parts, and read by splitting at the separator and
trimming each part. The main statements say when this gives the parts back:

* `trim_eq_self_iff`: a text is trimmed when it neither starts nor ends with a blank;
* `splitAt_intercalate`: parts without separators are found again;
* `splitLast_append`: the last separator is found in front of a text without one.
-/

namespace DialogTable.Text

/-! ### Trimming -/

theorem trimStart_eq_self_iff (text : List Char) :
    trimStart text = text ↔ ∀ c ∈ text.head?, isBlank c = false := by
  cases text with
  | nil => simp [trimStart]
  | cons c rest => simp [trimStart, List.dropWhile_eq_self_iff]

theorem trimEnd_eq_self_iff (text : List Char) :
    trimEnd text = text ↔ ∀ c ∈ text.getLast?, isBlank c = false := by
  rw [trimEnd, List.reverse_eq_iff, ← List.head?_reverse]
  exact trimStart_eq_self_iff text.reverse

theorem length_trim_le (text : List Char) : (trim text).length ≤ text.length := by
  have hend : (trim text).length ≤ (trimStart text).length :=
    (List.rdropWhile_prefix isBlank (trimStart text)).length_le
  have hstart : (trimStart text).length ≤ text.length := (List.dropWhile_suffix isBlank).length_le
  omega

/-- A text is trimmed when it neither starts nor ends with a blank. -/
theorem trim_eq_self_iff (text : List Char) :
    trim text = text ↔
      (∀ c ∈ text.head?, isBlank c = false) ∧ ∀ c ∈ text.getLast?, isBlank c = false := by
  rw [← trimStart_eq_self_iff, ← trimEnd_eq_self_iff]
  constructor
  · intro h
    have hs : trimStart text = text := by
      apply (List.dropWhile_suffix isBlank).eq_of_length_le
      rw [← h]
      exact (List.rdropWhile_prefix isBlank (trimStart text)).length_le.trans_eq (by rw [h]; rfl)
    exact ⟨hs, by rwa [trim, hs] at h⟩
  · intro ⟨hs, he⟩
    rw [trim, hs, he]

theorem trim_eq_self_of_not_blank {text : List Char} (h : ∀ c ∈ text, isBlank c = false) :
    trim text = text := by
  rw [trim_eq_self_iff]
  exact ⟨fun c hc => h c (List.mem_of_mem_head? hc), fun c hc => h c (List.mem_of_getLast? hc)⟩

theorem trim_trim (text : List Char) : trim (trim text) = trim text := by
  rw [trim_eq_self_iff]
  constructor
  · intro c hc
    have hp : trim text <+: trimStart text := List.rdropWhile_prefix isBlank (trimStart text)
    obtain ⟨rest, hrest⟩ := hp
    have hs : trimStart (trimStart text) = trimStart text := List.dropWhile_idempotent ..
    rw [trimStart_eq_self_iff] at hs
    apply hs c
    rw [← hrest, List.head?_append_of_ne_nil]
    · exact hc
    · rintro hnil
      simp [hnil] at hc
  · exact (trimEnd_eq_self_iff _).1 (List.rdropWhile_idempotent ..)

theorem mem_of_mem_trim {text : List Char} {c : Char} (h : c ∈ trim text) : c ∈ text :=
  (List.dropWhile_suffix isBlank).subset ((List.rdropWhile_prefix isBlank _).subset h)

theorem mem_trimStart_of_not_isBlank {text : List Char} {c : Char} (h : c ∈ text)
    (hc : isBlank c = false) : c ∈ trimStart text := by
  rw [← List.takeWhile_append_dropWhile (p := isBlank) (l := text), List.mem_append] at h
  rcases h with h | h
  · rw [List.mem_takeWhile_imp h] at hc
    cases hc
  · exact h

theorem mem_trim_of_not_isBlank {text : List Char} {c : Char} (h : c ∈ text)
    (hc : isBlank c = false) : c ∈ trim text := by
  rw [trim, trimEnd, List.mem_reverse]
  apply mem_trimStart_of_not_isBlank _ hc
  rw [List.mem_reverse]
  exact mem_trimStart_of_not_isBlank h hc

theorem trim_of_allBlank {text : List Char} (h : allBlank text = true) : trim text = [] := by
  have hstart : trimStart text = [] := List.dropWhile_eq_nil_iff.2 (allBlank_iff.1 h)
  rw [trim, hstart]
  rfl

/-- A last character that is not blank stays the last one. -/
theorem getLast?_trim {text : List Char} {c : Char} (h : text.getLast? = some c)
    (hc : isBlank c = false) : (trim text).getLast? = some c := by
  have hstart : (trimStart text).getLast? = some c := by
    have hmem : c ∈ trimStart text := mem_trimStart_of_not_isBlank (List.mem_of_getLast? h) hc
    rw [← h]
    conv_rhs => rw [← List.takeWhile_append_dropWhile (p := isBlank) (l := text)]
    exact (List.getLast?_append_of_ne_nil _ (List.ne_nil_of_mem hmem)).symm
  have hend : trimEnd (trimStart text) = trimStart text := by
    rw [trimEnd_eq_self_iff]
    intro d hd
    rw [hstart] at hd
    rwa [← Option.some.inj hd]
  rw [trim, hend, hstart]

/-- Trimming leaves something of a text that is not blank. -/
theorem allBlank_trim (text : List Char) : allBlank (trim text) = allBlank text := by
  rw [Bool.eq_iff_iff, allBlank_iff, allBlank_iff]
  constructor
  · intro h c hc
    by_contra hb
    rw [Bool.not_eq_true] at hb
    rw [h c (mem_trim_of_not_isBlank hc hb)] at hb
    cases hb
  · exact fun h c hc => h c (mem_of_mem_trim hc)

/-- Trimming takes blanks off both ends and nothing else. -/
theorem exists_blanks_trim (text : List Char) :
    ∃ before after, text = before ++ (trim text ++ after) ∧
      (∀ c ∈ before, isBlank c = true) ∧ ∀ c ∈ after, isBlank c = true := by
  refine ⟨text.takeWhile isBlank, (trimStart text).rtakeWhile isBlank, ?_,
    fun _ => List.mem_takeWhile_imp, fun _ => List.mem_rtakeWhile_imp⟩
  have hend : trim text ++ (trimStart text).rtakeWhile isBlank = trimStart text :=
    List.rdropWhile_append_rtakeWhile
  rw [hend]
  exact List.takeWhile_append_dropWhile.symm

/-- Blanks around a trimmed text are what trimming takes off. -/
theorem trim_between {before text after : List Char} (hbefore : ∀ c ∈ before, isBlank c = true)
    (ht : trim text = text) (hafter : ∀ c ∈ after, isBlank c = true) :
    trim (before ++ (text ++ after)) = text := by
  have hstart : trimStart (before ++ (text ++ after)) = trimStart (text ++ after) :=
    List.dropWhile_append_of_pos hbefore
  by_cases hnil : text = []
  · subst hnil
    refine trim_of_allBlank (allBlank_iff.2 ?_)
    exact List.forall_mem_append.2 ⟨hbefore, hafter⟩
  · obtain ⟨hfirst, hlast⟩ := (trim_eq_self_iff text).1 ht
    have hkeep : trimStart (text ++ after) = text ++ after := by
      rw [trimStart_eq_self_iff, List.head?_append_of_ne_nil _ hnil]
      exact hfirst
    rw [trim, hstart, hkeep, trimEnd, List.reverse_append,
      List.dropWhile_append_of_pos fun c hc => hafter c (List.mem_reverse.1 hc)]
    exact (trimEnd_eq_self_iff text).2 hlast

/-- Text behind a trimmed text survives trimming at least up to its first character. -/
theorem length_lt_length_trim_append {text : List Char} (more : List Char) {c : Char}
    (ht : trim text = text) (hne : text ≠ []) (hc : isBlank c = false) :
    text.length < (trim (text ++ c :: more)).length := by
  have hs : trimStart (text ++ c :: more) = text ++ c :: more := by
    rw [trimStart_eq_self_iff, List.head?_append_of_ne_nil _ hne]
    exact ((trim_eq_self_iff text).1 ht).1
  rw [trim, hs, trimEnd, List.reverse_append, List.reverse_cons, List.append_assoc,
    List.dropWhile_append, List.length_reverse]
  have hd : List.dropWhile isBlank ([c] ++ text.reverse) = [c] ++ text.reverse := by
    simp [hc]
  split
  · rw [hd]
    simp
  · simp
    omega

/-! ### Splitting -/

theorem splitParts_append {sep : Char → Bool} {part : List Char}
    (h : ∀ c ∈ part, sep c = false) (rest : List Char) :
    splitParts sep (part ++ rest) = (part ++ (splitParts sep rest).1, (splitParts sep rest).2) := by
  induction part with
  | nil => rfl
  | cons c part ih =>
    have hc : sep c = false := h c List.mem_cons_self
    rw [List.cons_append, splitParts, ih fun d hd => h d (List.mem_cons_of_mem c hd), hc]
    rfl

/-- Parts without separators are found again. -/
theorem splitAt_intercalate {sep : Char → Bool} {s : Char} (hs : sep s = true)
    {parts : List (List Char)} (hne : parts ≠ []) (h : ∀ part ∈ parts, ∀ c ∈ part, sep c = false) :
    splitAt sep ([s].intercalate parts) = parts := by
  induction parts with
  | nil => exact absurd rfl hne
  | cons part rest ih =>
    have hpart := h part List.mem_cons_self
    cases rest with
    | nil =>
      rw [List.intercalate_singleton, splitAt, ← List.append_nil part, splitParts_append hpart]
      rfl
    | cons next rest =>
      have ih := ih (List.cons_ne_nil _ _) fun p hp => h p (List.mem_cons_of_mem part hp)
      rw [List.intercalate_cons_cons, List.append_assoc, splitAt, splitParts_append hpart,
        List.singleton_append, splitParts, hs]
      simpa [splitAt] using ih

theorem mem_intercalate {sep c : Char} {parts : List (List Char)}
    (h : c ∈ [sep].intercalate parts) : c = sep ∨ ∃ part ∈ parts, c ∈ part := by
  induction parts with
  | nil => exact absurd h List.not_mem_nil
  | cons part rest ih =>
    by_cases hne : rest = []
    · subst hne
      exact .inr ⟨part, List.mem_cons_self, by simpa using h⟩
    · rw [List.intercalate_cons_of_ne_nil hne, List.append_assoc, List.mem_append,
        List.singleton_append, List.mem_cons] at h
      rcases h with h | h | h
      · exact .inr ⟨part, List.mem_cons_self, h⟩
      · exact .inl h
      · rcases ih h with h | ⟨other, hother, hc⟩
        · exact .inl h
        · exact .inr ⟨other, List.mem_cons_of_mem part hother, hc⟩

theorem mem_intercalate_of_mem {sep c : Char} {parts : List (List Char)} {part : List Char}
    (hpart : part ∈ parts) (h : c ∈ part) : c ∈ [sep].intercalate parts := by
  induction parts with
  | nil => exact absurd hpart List.not_mem_nil
  | cons first rest ih =>
    by_cases hne : rest = []
    · subst hne
      rw [List.mem_singleton] at hpart
      rwa [List.intercalate_singleton, ← hpart]
    · rw [List.intercalate_cons_of_ne_nil hne, List.append_assoc]
      rcases List.mem_cons.1 hpart with rfl | hpart
      · exact List.mem_append_left _ h
      · exact List.mem_append_right _ (List.mem_append_right _ (ih hpart))

theorem not_sep_of_mem_splitAt {sep : Char → Bool} {text part : List Char} {c : Char}
    (hp : part ∈ splitAt sep text) (hc : c ∈ part) : sep c = false ∧ c ∈ text := by
  induction text generalizing part with
  | nil =>
    rw [splitAt, splitParts, List.mem_singleton] at hp
    simp [hp] at hc
  | cons d rest ih =>
    rw [splitAt, splitParts] at hp
    split at hp
    · next hd =>
      rcases List.mem_cons.1 hp with rfl | hp
      · exact absurd hc List.not_mem_nil
      · obtain ⟨hsep, hmem⟩ := ih hp hc
        exact ⟨hsep, List.mem_cons_of_mem d hmem⟩
    · next hd =>
      rcases List.mem_cons.1 hp with rfl | hp
      · rcases List.mem_cons.1 hc with rfl | hc
        · exact ⟨by simpa using hd, List.mem_cons_self⟩
        · obtain ⟨hsep, hmem⟩ := ih List.mem_cons_self hc
          exact ⟨hsep, List.mem_cons_of_mem d hmem⟩
      · obtain ⟨hsep, hmem⟩ := ih (List.mem_cons_of_mem _ hp) hc
        exact ⟨hsep, List.mem_cons_of_mem d hmem⟩

/-- The parts and the separators make up the text. -/
theorem sum_length_splitAt (sep : Char → Bool) (text : List Char) :
    ((splitAt sep text).map fun part => part.length + 1).sum = text.length + 1 := by
  induction text with
  | nil => rfl
  | cons c rest ih =>
    rw [splitAt, List.map_cons, List.sum_cons] at ih
    rw [splitAt, splitParts]
    split
    · rw [List.map_cons, List.map_cons, List.sum_cons, List.sum_cons, ih, List.length_nil,
        List.length_cons]
      omega
    · simp only [List.map_cons, List.sum_cons, List.length_cons]
      omega

/-- Text without separators goes to the last part. -/
theorem splitAt_append {sep : Char → Bool} {more : List Char} (h : ∀ c ∈ more, sep c = false)
    (text : List Char) :
    ∃ parts last, splitAt sep text = parts ++ [last] ∧
      splitAt sep (text ++ more) = parts ++ [last ++ more] := by
  induction text with
  | nil =>
    have hsplit := splitParts_append h []
    rw [List.append_nil] at hsplit
    exact ⟨[], [], rfl, by rw [List.nil_append, splitAt, hsplit]; simp [splitParts]⟩
  | cons c rest ih =>
    obtain ⟨parts, last, hrest, hmore⟩ := ih
    rw [splitAt] at hrest hmore
    rw [List.cons_append, splitAt, splitAt, splitParts, splitParts]
    split
    · exact ⟨[] :: parts, last, by rw [hrest]; rfl, by rw [hmore]; rfl⟩
    · cases parts with
      | nil =>
        rw [List.nil_append, List.cons.injEq] at hrest hmore
        exact ⟨[], c :: last, by rw [hrest.1, hrest.2]; rfl, by rw [hmore.1, hmore.2]; rfl⟩
      | cons part parts =>
        rw [List.cons_append, List.cons.injEq] at hrest hmore
        exact ⟨(c :: part) :: parts, last, by rw [hrest.1, hrest.2]; rfl,
          by rw [hmore.1, hmore.2]; rfl⟩

theorem splitLast_eq_none {sep : Char} {text : List Char} (h : sep ∉ text) :
    splitLast sep text = none := by
  induction text with
  | nil => rfl
  | cons c rest ih =>
    rw [List.mem_cons, not_or] at h
    rw [splitLast, ih h.2, if_neg (Ne.symm h.1)]

/-- The last separator is found in front of a text without one. -/
theorem splitLast_append {sep : Char} {after : List Char} (h : sep ∉ after) (before : List Char) :
    splitLast sep (before ++ sep :: after) = some (before, after) := by
  induction before with
  | nil => rw [List.nil_append, splitLast, splitLast_eq_none h, if_pos rfl]
  | cons c before ih => rw [List.cons_append, splitLast, ih]

end DialogTable.Text
