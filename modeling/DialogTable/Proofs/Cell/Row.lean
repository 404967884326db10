import DialogTable.Proofs.Cell.Quoting

/-!
# When a written row reads back

The quotes of one cell count for the cells behind it. A cell is sound if all its commas can be kept
as text and, unless it is the last one, its quotes come in pairs. `split_encode_comma_iff` says
which cells are found again whatever follows them. The other main statements are about the cells of
a row before which all is well:

* `getElem?_split_row`: a sound cell behind sound cells is found again;
* `getElem?_split_row_of_not_soundAt`: the first cell that is not sound is misread.
-/

namespace DialogTable.Cell

/-! ### Writing a row -/

/-- The text of a row of cells. -/
def row (cells : List (List Char)) : List Char :=
  [','].intercalate (cells.map encode)

theorem toList_encodeRow (cells : List String) :
    (encodeRow cells).toList = row (cells.map String.toList) := by
  rw [encodeRow, String.toList_intercalate, row]
  simp [Function.comp_def]

/-- Writing a cell adds quotes and spaces, nothing else. -/
theorem mem_encode {cell : List Char} {c : Char} (h : c ∈ encode cell) :
    c ∈ cell ∨ c ∈ ['"', ' '] := by
  have hflat : c ∈ flatten cell → c ∈ cell ∨ c ∈ ['"', ' '] := by
    intro hc
    obtain ⟨d, hd, rfl⟩ := List.mem_map.1 hc
    split
    · exact .inr (by decide)
    · exact .inl hd
  by_cases hbare : Bare cell
  · rw [encode_of_bare hbare] at h
    exact hflat h
  · rw [encode_of_not_bare hbare, wrap, List.mem_cons, List.mem_append, List.mem_singleton] at h
    rcases h with rfl | h | rfl
    · exact .inr (by decide)
    · exact hflat h
    · exact .inr (by decide)

/-- Writing a row adds commas, quotes and spaces, nothing else. -/
theorem mem_row {cells : List (List Char)} {c : Char} (h : c ∈ row cells) :
    (∃ cell ∈ cells, c ∈ cell) ∨ c ∈ [',', '"', ' '] := by
  rcases Text.mem_intercalate h with rfl | ⟨part, hpart, hc⟩
  · exact .inr List.mem_cons_self
  · obtain ⟨cell, hcell, rfl⟩ := List.mem_map.1 hpart
    exact (mem_encode hc).imp (fun hc => ⟨cell, hcell, hc⟩) (List.mem_cons_of_mem ',')

theorem oneLine_encode (cell : List Char) : OneLine (encode cell) := by
  by_cases h : Bare cell
  · rw [encode_of_bare h]
    exact oneLine_flatten cell
  · intro c hc
    rw [encode_of_not_bare h, wrap, List.mem_cons, List.mem_append, List.mem_singleton] at hc
    rcases hc with rfl | hc | rfl
    · decide
    · exact oneLine_flatten cell c hc
    · decide

/-- A written row is one line, whatever its cells hold. -/
theorem oneLine_row (cells : List (List Char)) : OneLine (row cells) := by
  intro c hc
  rcases Text.mem_intercalate hc with rfl | ⟨part, hpart, hc⟩
  · decide
  · obtain ⟨cell, -, rfl⟩ := List.mem_map.1 hpart
    exact oneLine_encode cell c hc

theorem row_singleton (cell : List Char) : row [cell] = encode cell := by
  simp [row]

theorem row_cons {rest : List (List Char)} (hne : rest ≠ []) (cell : List Char) :
    row (cell :: rest) = encode cell ++ ',' :: row rest := by
  rw [row, List.map_cons, List.intercalate_cons_of_ne_nil (by simpa using hne), row]
  simp

theorem split_eq_cons (line : List Char) :
    split line = unwrap (rawParts false line).1 :: (rawParts false line).2.map unwrap := rfl

theorem split_row_singleton {cell : List Char} (h : Guardable cell) :
    split (row [cell]) = [flatten cell] := by
  have hparts := rawParts_append false (commasAfter_encode_iff.2 h) []
  rw [List.append_nil, rawParts_nil, List.append_nil] at hparts
  rw [row_singleton, split_eq_cons, hparts, unwrap_encode, List.map_nil]

/-! ### A written cell before the rest of a line -/

/-- A text whose own quotes guard its commas ends at the comma behind it. -/
theorem split_append_comma {raw : List Char} (h : CommasAfter true raw)
    (heven : oddQuotes raw = false) (line : List Char) :
    split (raw ++ ',' :: line) = unwrap raw :: split line := by
  have hparts := rawParts_append false h (',' :: line)
  rw [heven, Bool.xor_false, rawParts_comma, List.append_nil] at hparts
  rw [split_eq_cons, hparts, List.map_cons, ← split_eq_cons]

/-- A sound cell is found again, and the rest of the line is read from where it ends. -/
theorem split_encode_comma {cell : List Char} (h : Guardable cell) (heven : oddQuotes cell = false)
    (line : List Char) : split (encode cell ++ ',' :: line) = flatten cell :: split line := by
  rw [← oddQuotes_encode] at heven
  rw [split_append_comma (commasAfter_encode_iff.2 h) heven, unwrap_encode]

/-- A cell with a comma that cannot be guarded is read only up to such a comma. -/
theorem split_encode_of_not_guardable {cell : List Char} (h : ¬ Guardable cell)
    (more : List Char) :
    ∃ first others, split (encode cell ++ more) = first :: others ∧ first.length < cell.length := by
  have hcommas : ¬ CommasAfter true (encode cell) := fun hc => h (commasAfter_encode_iff.1 hc)
  obtain ⟨before, after, heq, hfirst⟩ := rawParts_of_not_commasAfter false hcommas
  have hbare : ¬ Bare cell := fun hb => h (.inr hb)
  refine ⟨unwrap before, _, by rw [split_eq_cons, hfirst], ?_⟩
  -- The wrapped form starts with a quote, so that the part before the comma does too.
  rw [encode_of_not_bare hbare, wrap] at heq
  cases before with
  | nil =>
    obtain ⟨hq, -⟩ := List.cons.inj heq
    exact absurd hq (by decide)
  | cons c before =>
    obtain ⟨rfl, ht⟩ := List.cons.inj heq
    have ht : flatten cell ++ ['"'] = before ++ ',' :: after := ht
    have hafter : after ≠ [] := by
      rintro rfl
      exact absurd (List.append_inj_right' ht rfl) (by decide)
    have hpos : 0 < after.length := List.length_pos_iff.2 hafter
    have hlen := congrArg List.length ht
    rw [List.length_append, List.length_append, List.length_singleton, List.length_cons,
      length_flatten] at hlen
    have hle : (unwrap ('"' :: before)).length ≤ before.length := length_dropClosing_le before
    omega

/-- An odd number of quotes takes the next comma and what follows it into the cell. -/
theorem split_encode_of_oddQuotes {cell : List Char} (h : Guardable cell)
    (hodd : oddQuotes cell = true) (line : List Char) :
    ∃ c more others, split (encode cell ++ ',' :: line) = (flatten cell ++ c :: more) :: others ∧
      (c = ',' ∨ c = '"') := by
  have hparts := rawParts_append false (commasAfter_encode_iff.2 h) (',' :: line)
  obtain ⟨more, hmore⟩ : ∃ more, (rawParts true (',' :: line)).1 = ',' :: more := by
    exact ⟨_, by rw [rawParts]; rfl⟩
  rw [oddQuotes_encode, hodd, Bool.false_xor, hmore] at hparts
  have hsplit : split (encode cell ++ ',' :: line) = unwrap (encode cell ++ ',' :: more) ::
      (rawParts true (',' :: line)).2.map unwrap := by
    rw [split_eq_cons, hparts]
  obtain ⟨kept, hkept⟩ := exists_dropClosing_comma more
  by_cases hbare : Bare cell
  · refine ⟨',', kept, (rawParts true (',' :: line)).2.map unwrap, ?_, .inl rfl⟩
    have hne : flatten cell ≠ [] := by
      intro hnil
      rw [← oddQuotes_flatten, hnil] at hodd
      cases hodd
    have hhead : (flatten cell ++ ',' :: more).head? ≠ some '"' := by
      rw [List.head?_append_of_ne_nil _ hne]
      exact (bare_flatten.2 hbare).2.1
    rw [hsplit, encode_of_bare hbare, unwrap, dropOpening_eq_self hhead,
      dropClosing_append _ (List.cons_ne_nil _ _), hkept]
  · refine ⟨'"', ',' :: kept, (rawParts true (',' :: line)).2.map unwrap, ?_, .inr rfl⟩
    have hunwrap : unwrap (wrap (flatten cell) ++ ',' :: more)
        = dropClosing ((flatten cell ++ ['"']) ++ ',' :: more) := rfl
    rw [hsplit, encode_of_not_bare hbare, hunwrap,
      dropClosing_append _ (List.cons_ne_nil _ _), hkept]
    simp

/-- **The cells that a line can hold.** A written cell is found again as the first cell of any line
that goes on behind it, and the rest is read as if it stood alone, exactly if the cell has no line
break, its quotes come in pairs, and its commas stand all outside of its quotes or all inside with
no quote at either end. -/
theorem split_encode_comma_iff (cell line : List Char) :
    split (encode cell ++ ',' :: line) = cell :: split line ↔
      OneLine cell ∧ oddQuotes cell = false ∧
        (CommasAfter false cell ∨
          CommasAfter true cell ∧ cell.head? ≠ some '"' ∧ cell.getLast? ≠ some '"') := by
  show _ ↔ OneLine cell ∧ oddQuotes cell = false ∧ Guardable cell
  constructor
  · intro hsplit
    by_cases hguard : Guardable cell
    · by_cases heven : oddQuotes cell = false
      · rw [split_encode_comma hguard heven, List.cons.injEq] at hsplit
        have hone := oneLine_flatten cell
        rw [hsplit.1] at hone
        exact ⟨hone, heven, hguard⟩
      · -- The cell that is found has swallowed the comma behind it.
        rw [Bool.not_eq_false] at heven
        obtain ⟨c, more, others, hfound, -⟩ := split_encode_of_oddQuotes hguard heven line
        rw [hfound, List.cons.injEq] at hsplit
        have hlen := congrArg List.length hsplit.1
        rw [List.length_append, length_flatten, List.length_cons] at hlen
        omega
    · obtain ⟨first, others, hfound, hlt⟩ := split_encode_of_not_guardable hguard (',' :: line)
      rw [hfound, List.cons.injEq] at hsplit
      rw [hsplit.1] at hlt
      exact absurd hlt (Nat.lt_irrefl _)
  · rintro ⟨hone, heven, hguard⟩
    rw [split_encode_comma hguard heven, flatten_eq_self hone]

/-! ### A written cell before the rest of its row -/

/-- A sound cell is found again, and the rest of the row is read from where it ends. -/
theorem split_row_cons {cell : List Char} {rest : List (List Char)} (hne : rest ≠ [])
    (h : Guardable cell) (heven : oddQuotes cell = false) :
    split (row (cell :: rest)) = flatten cell :: split (row rest) := by
  rw [row_cons hne, split_encode_comma h heven]

theorem split_row_of_not_guardable {cell : List Char} (h : ¬ Guardable cell)
    (rest : List (List Char)) :
    ∃ first others, split (row (cell :: rest)) = first :: others ∧ first.length < cell.length := by
  by_cases hne : rest = []
  · have hfound := split_encode_of_not_guardable h []
    rwa [List.append_nil, ← row_singleton, ← hne] at hfound
  · rw [row_cons hne]
    exact split_encode_of_not_guardable h _

theorem split_row_of_oddQuotes {cell : List Char} (h : Guardable cell)
    (hodd : oddQuotes cell = true) {rest : List (List Char)} (hne : rest ≠ []) :
    ∃ c more others, split (row (cell :: rest)) = (flatten cell ++ c :: more) :: others ∧
      (c = ',' ∨ c = '"') := by
  rw [row_cons hne]
  exact split_encode_of_oddQuotes h hodd _

/-- The cell at a position can be written so that it reads back. The last cell of a row may leave a
quote open. -/
def SoundAt (cells : List (List Char)) (i : Nat) : Prop :=
  ∀ cell, cells[i]? = some cell →
    Guardable cell ∧ (i + 1 < cells.length → oddQuotes cell = false)

theorem soundAt_cons_succ {cell : List Char} {rest : List (List Char)} {i : Nat} :
    SoundAt (cell :: rest) (i + 1) ↔ SoundAt rest i := by
  simp [SoundAt]

theorem soundAt_cons_zero {cell : List Char} {rest : List (List Char)} :
    SoundAt (cell :: rest) 0 ↔ Guardable cell ∧ (rest ≠ [] → oddQuotes cell = false) := by
  simp [SoundAt, List.length_pos_iff]

/-- Behind sound cells the rest of the row is read from where they end. -/
theorem drop_split_row {cells : List (List Char)} {i : Nat} (hi : i < cells.length)
    (h : ∀ j < i, SoundAt cells j) : (split (row cells)).drop i = split (row (cells.drop i)) := by
  induction cells generalizing i with
  | nil => exact absurd hi (Nat.not_lt_zero _)
  | cons cell rest ih =>
    cases i with
    | zero => rfl
    | succ i =>
      have hne : rest ≠ [] := by
        rintro rfl
        exact absurd hi (by simp)
      obtain ⟨hcell, heven⟩ := soundAt_cons_zero.1 (h 0 (Nat.succ_pos i))
      rw [split_row_cons hne hcell (heven hne), List.drop_succ_cons, List.drop_succ_cons,
        ih (by simpa using hi) fun j hj => soundAt_cons_succ.1 (h (j + 1) (by omega))]

theorem soundAt_drop {cells : List (List Char)} {i j : Nat} :
    SoundAt (cells.drop i) j ↔ SoundAt cells (i + j) := by
  simp only [SoundAt, List.getElem?_drop, List.length_drop]
  have hlen : j + 1 < cells.length - i ↔ i + j + 1 < cells.length := by omega
  rw [hlen]

theorem head?_split_row {cells : List (List Char)} (h : SoundAt cells 0) {cell : List Char}
    (hcell : cells.head? = some cell) : (split (row cells)).head? = some (flatten cell) := by
  obtain ⟨rest, rfl⟩ := List.head?_eq_some_iff.1 hcell
  obtain ⟨hguard, heven⟩ := soundAt_cons_zero.1 h
  by_cases hne : rest = []
  · rw [hne, split_row_singleton hguard, List.head?_cons]
  · rw [split_row_cons hne hguard (heven hne), List.head?_cons]

/-- What is read in the place of a cell that is not sound: too little of it, or more than it. -/
def Misread (cell found : List Char) : Prop :=
  found.length < cell.length ∨
    ∃ c more, found = flatten cell ++ c :: more ∧ (c = ',' ∨ c = '"')

theorem Misread.ne {cell found : List Char} (h : Misread cell found) : found ≠ flatten cell := by
  rintro rfl
  rcases h with h | ⟨c, more, h, -⟩
  · rw [length_flatten] at h
    exact Nat.lt_irrefl _ h
  · simpa using congrArg List.length h

/-- In the place of an empty cell something is read that counts as present. -/
theorem Misread.not_allBlank {found : List Char} (h : Misread [] found) :
    Text.allBlank found = false := by
  rcases h with h | ⟨c, more, rfl, hc⟩
  · exact absurd h (Nat.not_lt_zero _)
  · rcases hc with rfl | rfl <;> rfl

/-- A misread text does not even agree with a trimmed one after trimming. -/
theorem Misread.trim_ne {cell found : List Char} (h : Misread cell found)
    (hflat : flatten cell = cell) (ht : Text.trim cell = cell) (hne : cell ≠ []) :
    Text.trim found ≠ cell := by
  intro heq
  have hlen := congrArg List.length heq
  rcases h with h | ⟨c, more, rfl, hc⟩
  · have hle := Text.length_trim_le found
    omega
  · have hblank : Text.isBlank c = false := by
      rcases hc with rfl | rfl <;> rfl
    rw [hflat] at hlen
    have hlt := Text.length_lt_length_trim_append more ht hne hblank
    omega

theorem head?_split_row_of_not_soundAt {cells : List (List Char)} (h : ¬ SoundAt cells 0)
    {cell : List Char} (hcell : cells.head? = some cell) :
    ∃ found, (split (row cells)).head? = some found ∧ Misread cell found := by
  obtain ⟨rest, rfl⟩ := List.head?_eq_some_iff.1 hcell
  rw [soundAt_cons_zero, not_and_or] at h
  by_cases hguard : Guardable cell
  · have hodd := h.resolve_left (not_not.2 hguard)
    rw [Classical.not_imp, Bool.not_eq_false] at hodd
    obtain ⟨c, more, others, hsplit, hc⟩ := split_row_of_oddQuotes hguard hodd.2 hodd.1
    exact ⟨_, by rw [hsplit, List.head?_cons], .inr ⟨c, more, rfl, hc⟩⟩
  · obtain ⟨first, others, hsplit, hlt⟩ := split_row_of_not_guardable hguard rest
    exact ⟨first, by rw [hsplit, List.head?_cons], .inl hlt⟩

theorem getElem?_split_row_eq_head? {cells : List (List Char)} {i : Nat} (hi : i < cells.length)
    (h : ∀ j < i, SoundAt cells j) :
    (split (row cells))[i]? = (split (row (cells.drop i))).head? := by
  rw [← drop_split_row hi h, List.head?_drop]

/-- A sound cell behind sound cells is found again. -/
theorem getElem?_split_row {cells : List (List Char)} {i : Nat} (h : ∀ j ≤ i, SoundAt cells j)
    {cell : List Char} (hcell : cells[i]? = some cell) :
    (split (row cells))[i]? = some (flatten cell) := by
  obtain ⟨hi, -⟩ := List.getElem?_eq_some_iff.1 hcell
  rw [getElem?_split_row_eq_head? hi fun j hj => h j (Nat.le_of_lt hj)]
  apply head?_split_row (soundAt_drop.2 (h i le_rfl))
  rw [List.head?_drop, hcell]

/-- The first cell that is not sound is misread. -/
theorem getElem?_split_row_of_not_soundAt {cells : List (List Char)} {i : Nat}
    (h : ∀ j < i, SoundAt cells j) (hi : ¬ SoundAt cells i) :
    ∃ cell found, cells[i]? = some cell ∧ (split (row cells))[i]? = some found ∧
      Misread cell found := by
  have hlt : i < cells.length := by
    by_contra hge
    apply hi
    intro cell hcell
    rw [List.getElem?_eq_none (Nat.le_of_not_lt hge)] at hcell
    cases hcell
  have hcell : cells[i]? = some cells[i] := List.getElem?_eq_getElem hlt
  have hhead : (cells.drop i).head? = some cells[i] := by rw [List.head?_drop, hcell]
  obtain ⟨found, hfound, hmis⟩ :=
    head?_split_row_of_not_soundAt (fun hs => hi (soundAt_drop.1 hs)) hhead
  exact ⟨cells[i], found, hcell, by rw [getElem?_split_row_eq_head? hlt h, hfound], hmis⟩

/-! ### What a row holds besides commas and quotes -/

/-- The number of characters that are neither commas nor quotes. -/
def letters (text : List Char) : Nat :=
  text.countP fun c => c ≠ ',' && c ≠ '"'

theorem letters_append (a b : List Char) : letters (a ++ b) = letters a + letters b :=
  List.countP_append

theorem letters_comma (text : List Char) : letters (',' :: text) = letters text := by
  simp [letters]

theorem letters_quote (text : List Char) : letters ('"' :: text) = letters text := by
  simp [letters]

theorem letters_eq_zero_iff {text : List Char} :
    letters text = 0 ↔ ∀ c ∈ text, c = ',' ∨ c = '"' := by
  rw [letters, List.countP_eq_zero]
  apply forall₂_congr
  intro c _
  rw [Bool.and_eq_true, decide_eq_true_eq, decide_eq_true_eq, not_and_or, not_not, not_not]

theorem letters_flatten (cell : List Char) : letters (flatten cell) = letters cell := by
  rw [letters, letters, flatten, List.countP_map]
  apply List.countP_congr
  intro c _
  rw [Function.comp_apply]
  split
  · next h => rcases h with rfl | rfl <;> decide
  · rfl

theorem letters_encode (cell : List Char) : letters (encode cell) = letters cell := by
  by_cases h : Bare cell
  · rw [encode_of_bare h, letters_flatten]
  · rw [encode_of_not_bare h, wrap, letters_quote, letters_append, letters_flatten]
    rfl

theorem letters_row (cells : List (List Char)) : letters (row cells) = (cells.map letters).sum := by
  induction cells with
  | nil => rfl
  | cons cell rest ih =>
    by_cases hne : rest = []
    · rw [hne, row_singleton, letters_encode, List.map_singleton, List.sum_singleton]
    · rw [row_cons hne, letters_append, letters_encode, letters_comma, ih, List.map_cons,
        List.sum_cons]

theorem letters_rawParts (guarded : Bool) (line : List Char) :
    letters line =
      letters (rawParts guarded line).1 + ((rawParts guarded line).2.map letters).sum := by
  induction line generalizing guarded with
  | nil => rfl
  | cons c rest ih =>
    rw [rawParts]
    split
    · next hc =>
      have hc : c = ',' := by
        rw [Bool.and_eq_true, decide_eq_true_eq] at hc
        exact hc.1
      have ih := ih guarded
      rw [hc, letters_comma, List.map_cons, List.sum_cons]
      exact ih.trans (Nat.zero_add _).symm
    · have ih := ih (guarded ^^ decide (c = '"'))
      rw [← List.singleton_append, letters_append, ih, ← Nat.add_assoc, ← letters_append]
      rfl

theorem letters_unwrap (raw : List Char) : letters (unwrap raw) = letters raw := by
  have hopening : letters (dropOpening raw) = letters raw := by
    unfold dropOpening
    split
    · exact (letters_quote _).symm
    · rfl
  rw [unwrap, dropClosing, ← hopening]
  split
  · next h =>
    obtain ⟨text, htext⟩ := List.getLast?_eq_some_iff.1 h
    rw [htext, List.dropLast_concat, letters_append]
    rfl
  · rfl

/-- Reading drops commas and quotes only. -/
theorem sum_letters_split (line : List Char) : ((split line).map letters).sum = letters line := by
  rw [letters_rawParts false, split_eq_cons, List.map_cons, List.sum_cons, letters_unwrap,
    List.map_map]
  congr 3
  exact funext letters_unwrap

theorem sum_letters_le {cells found : List (List Char)}
    (h : ∀ j < cells.length, found.getD j [] = cells.getD j []) :
    (cells.map letters).sum ≤ (found.map letters).sum := by
  induction cells generalizing found with
  | nil => exact Nat.zero_le _
  | cons cell rest ih =>
    have hcell : found.getD 0 [] = cell := h 0 (Nat.succ_pos _)
    have hrest : ∀ j < rest.length, found.tail.getD j [] = rest.getD j [] := by
      intro j hj
      have hj := h (j + 1) (Nat.succ_lt_succ hj)
      cases found <;> exact hj
    have ih := ih hrest
    rw [List.map_cons, List.sum_cons]
    cases found with
    | nil =>
      rw [← hcell]
      exact (Nat.zero_add _).le.trans ih
    | cons first later =>
      rw [← hcell]
      exact Nat.add_le_add_left ih _

/-- Where all later cells are found again, nothing but commas and quotes can have come to a cell. -/
theorem letters_le {cells : List (List Char)} {i : Nat} (h : ∀ j < i, SoundAt cells j)
    (hlater : ∀ j, i < j → j < cells.length → (split (row cells)).getD j [] = cells.getD j [])
    {cell found : List Char} (hcell : cells[i]? = some cell)
    (hfound : (split (row cells))[i]? = some found) : letters found ≤ letters cell := by
  obtain ⟨hi, hcell⟩ := List.getElem?_eq_some_iff.1 hcell
  obtain ⟨hfi, hfound⟩ := List.getElem?_eq_some_iff.1 hfound
  have hsum : (((split (row cells)).drop i).map letters).sum =
      ((cells.drop i).map letters).sum := by
    rw [drop_split_row hi h, sum_letters_split, letters_row]
  have hle : ((cells.drop (i + 1)).map letters).sum ≤
      (((split (row cells)).drop (i + 1)).map letters).sum := by
    apply sum_letters_le
    intro j hj
    rw [List.length_drop] at hj
    have hj := hlater (i + 1 + j) (by omega) (by omega)
    simpa [List.getD_eq_getElem?_getD] using hj
  rw [List.drop_eq_getElem_cons hi, List.drop_eq_getElem_cons hfi, List.map_cons, List.map_cons,
    List.sum_cons, List.sum_cons, hcell, hfound] at hsum
  omega

end DialogTable.Cell
