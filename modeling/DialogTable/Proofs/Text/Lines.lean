import DialogTable.Text.Line

/-!
# Reading back written lines

Lines are written one after another, each closed by a line feed. `lines_closeLines` says what
reading finds again: each line, less one carriage return at its end. `HasLines` tells the lines of
any text as they stand in it, and `hasLines_iff` that reading finds these and no others.
-/

namespace DialogTable.Text

theorem closedLines_cons_of_ne {c : Char} (hc : c ≠ '\n') (rest : List Char) :
    closedLines (c :: rest) =
      match (closedLines rest).1 with
      | [] => ([], c :: (closedLines rest).2)
      | line :: later => ((c :: line) :: later, (closedLines rest).2) := by
  rw [closedLines, List.foldr_cons, if_neg hc]
  rfl

theorem closedLines_append_lineFeed {line : List Char} (h : '\n' ∉ line) (rest : List Char) :
    closedLines (line ++ '\n' :: rest) = (line :: (closedLines rest).1, (closedLines rest).2) := by
  induction line with
  | nil => exact closedLines_lineFeed rest
  | cons c line ih =>
    rw [List.mem_cons, not_or] at h
    rw [List.cons_append, closedLines_cons_of_ne (Ne.symm h.1), ih h.2]

theorem toList_closeLines (texts : List String) :
    (closeLines texts).toList = texts.flatMap fun text => text.toList ++ ['\n'] := by
  rw [closeLines, String.toList_join, List.flatMap_map]
  simp only [String.toList_append]
  rfl

theorem closedLines_closeLines {texts : List String} (h : ∀ text ∈ texts, '\n' ∉ text.toList) :
    closedLines (closeLines texts).toList = (texts.map String.toList, []) := by
  rw [toList_closeLines]
  induction texts with
  | nil => rfl
  | cons text texts ih =>
    rw [List.flatMap_cons, List.append_assoc, List.singleton_append,
      closedLines_append_lineFeed (h text List.mem_cons_self),
      ih fun t ht => h t (List.mem_cons_of_mem text ht)]
    rfl

/-- Written lines are found again, each less one carriage return at its end. -/
theorem lines_closeLines {texts : List String} (h : ∀ text ∈ texts, '\n' ∉ text.toList) :
    lines (closeLines texts).toList = texts.map fun text => dropReturn text.toList := by
  rw [lines, closedLines_closeLines h]
  simp

theorem dropReturn_eq_self {line : List Char} (h : line.getLast? ≠ some '\r') :
    dropReturn line = line :=
  if_neg h

theorem length_dropReturn_lt {line : List Char} (h : line.getLast? = some '\r') :
    (dropReturn line).length < line.length := by
  have hne : line ≠ [] := by
    rintro rfl
    cases h
  have hpos : 0 < line.length := List.length_pos_iff.2 hne
  rw [dropReturn, if_pos h, List.length_dropLast]
  omega

theorem mem_of_mem_dropReturn {line : List Char} {c : Char} (h : c ∈ dropReturn line) :
    c ∈ line := by
  rw [dropReturn] at h
  split at h
  · exact line.dropLast_sublist.mem h
  · exact h

/-! ### The characters of lines -/

theorem mem_closedLines {text : List Char} :
    (∀ line ∈ (closedLines text).1, ∀ c ∈ line, c ≠ '\n' ∧ c ∈ text) ∧
      ∀ c ∈ (closedLines text).2, c ≠ '\n' ∧ c ∈ text := by
  induction text with
  | nil => simp [closedLines]
  | cons d rest ih =>
    by_cases hd : d = '\n'
    · subst hd
      rw [closedLines_lineFeed, List.forall_mem_cons]
      refine ⟨⟨by simp, fun line hl c hc => ?_⟩, fun c hc => ?_⟩
      · exact ⟨(ih.1 line hl c hc).1, List.mem_cons_of_mem _ (ih.1 line hl c hc).2⟩
      · exact ⟨(ih.2 c hc).1, List.mem_cons_of_mem _ (ih.2 c hc).2⟩
    · rw [closedLines_cons_of_ne hd]
      split
      · refine ⟨by simp, fun c hc => ?_⟩
        rcases List.mem_cons.1 hc with rfl | hc
        · exact ⟨hd, List.mem_cons_self⟩
        · exact ⟨(ih.2 c hc).1, List.mem_cons_of_mem d (ih.2 c hc).2⟩
      · next line later heq =>
        rw [heq, List.forall_mem_cons] at ih
        obtain ⟨⟨hline, hlater⟩, hlast⟩ := ih
        rw [List.forall_mem_cons, List.forall_mem_cons]
        refine ⟨⟨⟨⟨hd, List.mem_cons_self⟩, fun c hc => ?_⟩, fun l hl c hc => ?_⟩, fun c hc => ?_⟩
        · exact ⟨(hline c hc).1, List.mem_cons_of_mem d (hline c hc).2⟩
        · exact ⟨(hlater l hl c hc).1, List.mem_cons_of_mem d (hlater l hl c hc).2⟩
        · exact ⟨(hlast c hc).1, List.mem_cons_of_mem d (hlast c hc).2⟩

/-- A line holds characters of the text, and no line feed. -/
theorem ne_lineFeed_of_mem_lines {text line : List Char} {c : Char} (hl : line ∈ lines text)
    (hc : c ∈ line) : c ≠ '\n' ∧ c ∈ text := by
  rw [lines, List.mem_append, List.mem_map] at hl
  rcases hl with ⟨closed, hclosed, rfl⟩ | hl
  · exact mem_closedLines.1 closed hclosed c (mem_of_mem_dropReturn hc)
  · split at hl
    · exact absurd hl List.not_mem_nil
    · rw [List.mem_singleton.1 hl] at hc
      exact mem_closedLines.2 c hc

/-! ### The lines as they stand in a text -/

/-- The lines of a text. A line feed closes a line, together with one carriage return right before
it. What stands behind the last line feed is a line too, if there is anything. -/
inductive HasLines : List Char → List (List Char) → Prop
  | nil : HasLines [] []
  | unclosed {line : List Char} (hfeed : '\n' ∉ line) (hne : line ≠ []) : HasLines line [line]
  | lineFeed {line rest : List Char} {later : List (List Char)} (hfeed : '\n' ∉ line)
      (hreturn : line.getLast? ≠ some '\r') (h : HasLines rest later) :
      HasLines (line ++ '\n' :: rest) (line :: later)
  | returnFeed {line rest : List Char} {later : List (List Char)} (hfeed : '\n' ∉ line)
      (h : HasLines rest later) : HasLines (line ++ '\r' :: '\n' :: rest) (line :: later)

theorem closedLines_of_not_mem {line : List Char} (h : '\n' ∉ line) :
    closedLines line = ([], line) := by
  induction line with
  | nil => rfl
  | cons c line ih =>
    rw [List.mem_cons, not_or] at h
    rw [closedLines_cons_of_ne (Ne.symm h.1), ih h.2]

theorem lines_of_not_mem {line : List Char} (h : '\n' ∉ line) (hne : line ≠ []) :
    lines line = [line] := by
  rw [lines, closedLines_of_not_mem h]
  simp [hne]

theorem lines_append_lineFeed {line : List Char} (h : '\n' ∉ line) (rest : List Char) :
    lines (line ++ '\n' :: rest) = dropReturn line :: lines rest := by
  rw [lines, closedLines_append_lineFeed h, lines]
  simp

theorem HasLines.lines_eq {text : List Char} {found : List (List Char)} (h : HasLines text found) :
    lines text = found := by
  induction h with
  | nil => rfl
  | unclosed hfeed hne => exact lines_of_not_mem hfeed hne
  | lineFeed hfeed hreturn _ ih =>
    rw [lines_append_lineFeed hfeed, dropReturn_eq_self hreturn, ih]
  | @returnFeed line rest later hfeed _ ih =>
    have hclosed : '\n' ∉ line ++ ['\r'] := by simp [hfeed]
    have hdrop : dropReturn (line ++ ['\r']) = line := by simp [dropReturn]
    rw [show line ++ '\r' :: '\n' :: rest = (line ++ ['\r']) ++ '\n' :: rest by simp,
      lines_append_lineFeed hclosed, hdrop, ih]

/-- Reading finds the lines of a text. -/
theorem hasLines_lines (text : List Char) : HasLines text (lines text) := by
  -- Behind the first line feed the text is shorter.
  induction hlen : text.length using Nat.strongRecOn generalizing text with
  | _ length ih =>
    by_cases hfeed : '\n' ∈ text
    · obtain ⟨line, rest, rfl, hline⟩ := List.eq_append_cons_of_mem hfeed
      have hrest : HasLines rest (lines rest) := by
        refine ih rest.length ?_ rest rfl
        rw [← hlen, List.length_append, List.length_cons]
        omega
      rw [lines_append_lineFeed hline]
      by_cases hreturn : line.getLast? = some '\r'
      · obtain ⟨start, rfl⟩ := List.getLast?_eq_some_iff.1 hreturn
        have hdrop : dropReturn (start ++ ['\r']) = start := by simp [dropReturn]
        have hstart : '\n' ∉ start := fun hmem => hline (List.mem_append_left _ hmem)
        rw [hdrop, List.append_assoc]
        exact .returnFeed hstart hrest
      · rw [dropReturn_eq_self hreturn]
        exact .lineFeed hline hreturn hrest
    · by_cases hne : text = []
      · rw [hne]
        exact .nil
      · rw [lines_of_not_mem hfeed hne]
        exact .unclosed hfeed hne

theorem hasLines_iff {text : List Char} {found : List (List Char)} :
    HasLines text found ↔ found = lines text := by
  constructor
  · exact fun h => h.lines_eq.symm
  · rintro rfl
    exact hasLines_lines text

end DialogTable.Text
