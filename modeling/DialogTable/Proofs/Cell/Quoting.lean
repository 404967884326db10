import DialogTable.Cell
import DialogTable.Proofs.Text.Parts

/-!
# Quotes and commas of a cell

A comma is text after an odd number of quotes. `encode` writes a cell as it stands where its own
quotes guard its commas, and between two more quotes else. `commasAfter_encode_iff` says for which
cells the written form guards all commas, and `oddQuotes_encode` that the two quotes around it never
matter to what comes behind the cell.
-/

namespace DialogTable.Cell

/-! ### Quotes and commas -/

/-- An odd number of quotes: a row that is outside quotes before the text is inside after it. -/
def oddQuotes (text : List Char) : Bool :=
  text.count '"' % 2 == 1

/-- Each comma stands after an odd number of quotes of the cell, or each after an even one. -/
def CommasAfter (odd : Bool) (cell : List Char) : Prop :=
  ∀ before after, cell = before ++ ',' :: after → oddQuotes before = odd

/-- A cell that is written as it stands: its own quotes guard its commas, and it has no quote at an
end that reading would take off. -/
def Bare (cell : List Char) : Prop :=
  CommasAfter true cell ∧ cell.head? ≠ some '"' ∧ cell.getLast? ≠ some '"'

/-- A cell whose commas can be kept as text, by its own quotes or by two more around it. -/
def Guardable (cell : List Char) : Prop :=
  CommasAfter false cell ∨ Bare cell

theorem oddQuotes_cons (c : Char) (rest : List Char) :
    oddQuotes (c :: rest) = (oddQuotes rest ^^ (c = '"')) := by
  by_cases hc : c = '"'
  · subst hc
    simp only [oddQuotes, List.count_cons_self]
    rcases Nat.mod_two_eq_zero_or_one (rest.count '"') with h | h <;>
      simp [h, Nat.add_mod]
  · simp [oddQuotes, hc]

theorem oddQuotes_append (a b : List Char) : oddQuotes (a ++ b) = (oddQuotes a ^^ oddQuotes b) := by
  induction a with
  | nil => simp [oddQuotes]
  | cons c a ih =>
    rw [List.cons_append, oddQuotes_cons, oddQuotes_cons, ih]
    cases oddQuotes a <;> cases oddQuotes b <;> cases decide (c = '"') <;> rfl

theorem oddQuotes_of_not_mem {text : List Char} (h : '"' ∉ text) : oddQuotes text = false := by
  simp [oddQuotes, List.count_eq_zero_of_not_mem h]

theorem commasAfter_nil (odd : Bool) : CommasAfter odd [] := by
  intro before after h
  exact absurd h.symm (List.append_ne_nil_of_right_ne_nil _ (List.cons_ne_nil _ _))

theorem commasAfter_cons_iff {odd : Bool} {c : Char} {rest : List Char} :
    CommasAfter odd (c :: rest) ↔
      (c = ',' → odd = false) ∧ CommasAfter (odd ^^ (c = '"')) rest := by
  constructor
  · intro h
    refine ⟨?_, ?_⟩
    · rintro rfl
      exact (h [] rest rfl).symm
    · intro before after hrest
      have hodd := h (c :: before) after (by rw [hrest, List.cons_append])
      rw [oddQuotes_cons] at hodd
      rw [← hodd]
      cases oddQuotes before <;> cases decide (c = '"') <;> rfl
  · rintro ⟨hc, hrest⟩ before after h
    cases before with
    | nil =>
      obtain ⟨rfl, -⟩ := List.cons.inj h
      exact (hc rfl).symm
    | cons d before =>
      obtain ⟨rfl, ht⟩ := List.cons.inj h
      rw [oddQuotes_cons, hrest before after ht]
      cases odd <;> cases decide (c = '"') <;> rfl

instance decidableCommasAfter (odd : Bool) : (cell : List Char) → Decidable (CommasAfter odd cell)
  | [] => isTrue (commasAfter_nil odd)
  | c :: rest =>
    have := decidableCommasAfter (odd ^^ (c = '"')) rest
    decidable_of_iff' _ commasAfter_cons_iff

instance (cell : List Char) : Decidable (Bare cell) :=
  inferInstanceAs (Decidable (_ ∧ _))

instance (cell : List Char) : Decidable (Guardable cell) :=
  inferInstanceAs (Decidable (_ ∨ _))

theorem commasAfter_of_not_mem {odd : Bool} {cell : List Char} (h : ',' ∉ cell) :
    CommasAfter odd cell := by
  rintro before after rfl
  exact absurd (List.mem_append_right before List.mem_cons_self) h

theorem commasAfter_append {odd : Bool} {a b : List Char} (ha : CommasAfter odd a)
    (hb : CommasAfter (odd ^^ oddQuotes a) b) : CommasAfter odd (a ++ b) := by
  induction a generalizing odd with
  | nil => simpa [oddQuotes] using hb
  | cons c a ih =>
    rw [commasAfter_cons_iff] at ha
    rw [List.cons_append, commasAfter_cons_iff]
    refine ⟨ha.1, ih ha.2 ?_⟩
    rw [oddQuotes_cons] at hb
    convert hb using 1
    cases odd <;> cases oddQuotes a <;> cases decide (c = '"') <;> rfl

theorem bare_of_not_mem {cell : List Char} (hc : ',' ∉ cell) (hq : '"' ∉ cell) : Bare cell :=
  ⟨commasAfter_of_not_mem hc, fun h => hq (List.mem_of_mem_head? h),
    fun h => hq (List.mem_of_getLast? h)⟩

/-! ### Line breaks -/

theorem flatten_cons (c : Char) (cell : List Char) :
    flatten (c :: cell) = (if c = '\n' ∨ c = '\r' then ' ' else c) :: flatten cell := rfl

theorem oddQuotes_flatten (cell : List Char) : oddQuotes (flatten cell) = oddQuotes cell := by
  induction cell with
  | nil => rfl
  | cons c cell ih =>
    rw [flatten_cons, oddQuotes_cons, oddQuotes_cons, ih]
    split
    · next h => rcases h with rfl | rfl <;> rfl
    · rfl

theorem commasAfter_flatten {odd : Bool} {cell : List Char} :
    CommasAfter odd (flatten cell) ↔ CommasAfter odd cell := by
  induction cell generalizing odd with
  | nil => rfl
  | cons c cell ih =>
    rw [flatten_cons, commasAfter_cons_iff, commasAfter_cons_iff, ih]
    split
    · next h => rcases h with rfl | rfl <;> simp
    · rfl

/-- A cell without a line break. -/
def OneLine (cell : List Char) : Prop :=
  ∀ c ∈ cell, c ≠ '\n' ∧ c ≠ '\r'

instance (cell : List Char) : Decidable (OneLine cell) :=
  List.decidableBAll (fun c => c ≠ '\n' ∧ c ≠ '\r') cell

theorem OneLine.getLast?_ne_return {cell : List Char} (h : OneLine cell) :
    cell.getLast? ≠ some '\r' :=
  fun hlast => (h '\r' (List.mem_of_getLast? hlast)).2 rfl

theorem flatten_eq_self {cell : List Char} (h : OneLine cell) : flatten cell = cell := by
  rw [flatten]
  conv_rhs => rw [← List.map_id cell]
  apply List.map_congr_left
  intro c hc
  rw [if_neg (not_or.2 (h c hc)), id]

theorem oneLine_flatten (cell : List Char) : OneLine (flatten cell) := by
  intro c h
  rw [flatten, List.mem_map] at h
  obtain ⟨d, -, rfl⟩ := h
  split
  · decide
  · next hd => exact not_or.1 hd

/-! ### The quotes at the ends -/

theorem dropOpening_eq_self {raw : List Char} (h : raw.head? ≠ some '"') :
    dropOpening raw = raw := by
  unfold dropOpening
  split
  · exact absurd rfl h
  · rfl

theorem dropClosing_eq_self {raw : List Char} (h : raw.getLast? ≠ some '"') :
    dropClosing raw = raw :=
  if_neg h

theorem dropClosing_concat (text : List Char) : dropClosing (text ++ ['"']) = text := by
  rw [dropClosing, if_pos List.getLast?_concat, List.dropLast_concat]

theorem dropClosing_append (text : List Char) {more : List Char} (hne : more ≠ []) :
    dropClosing (text ++ more) = text ++ dropClosing more := by
  rw [dropClosing, dropClosing, List.getLast?_append_of_ne_nil _ hne,
    List.dropLast_append_of_ne_nil hne]
  split <;> rfl

/-- A closing quote is not taken for a comma. -/
theorem exists_dropClosing_comma (more : List Char) :
    ∃ kept, dropClosing (',' :: more) = ',' :: kept := by
  by_cases hne : more = []
  · subst hne
    exact ⟨[], rfl⟩
  · exact ⟨dropClosing more, dropClosing_append [','] hne⟩

theorem length_dropClosing_le (raw : List Char) : (dropClosing raw).length ≤ raw.length := by
  unfold dropClosing
  split
  · exact raw.dropLast_sublist.length_le
  · rfl

theorem unwrap_wrap (cell : List Char) : unwrap (wrap cell) = cell :=
  dropClosing_concat cell

theorem unwrap_eq_self_iff (raw : List Char) :
    unwrap raw = raw ↔ raw.head? ≠ some '"' ∧ raw.getLast? ≠ some '"' := by
  constructor
  · intro h
    have hhead : raw.head? ≠ some '"' := by
      intro hq
      obtain ⟨rest, rfl⟩ := List.head?_eq_some_iff.1 hq
      have hle := length_dropClosing_le rest
      have hlen := congrArg List.length h
      rw [List.length_cons, unwrap, dropOpening] at hlen
      omega
    refine ⟨hhead, fun hq => ?_⟩
    obtain ⟨text, rfl⟩ := List.getLast?_eq_some_iff.1 hq
    rw [unwrap, dropOpening_eq_self hhead, dropClosing_concat] at h
    exact absurd h.symm (by simp)
  · rintro ⟨hhead, hlast⟩
    rw [unwrap, dropOpening_eq_self hhead, dropClosing_eq_self hlast]

/-! ### Reading past a cell -/

/-- Text whose commas are guarded goes into the cell that is being read. -/
theorem rawParts_append (guarded : Bool) {text : List Char} (h : CommasAfter (!guarded) text)
    (rest : List Char) :
    rawParts guarded (text ++ rest) =
      (text ++ (rawParts (guarded ^^ oddQuotes text) rest).1,
        (rawParts (guarded ^^ oddQuotes text) rest).2) := by
  induction text generalizing guarded with
  | nil => simp [oddQuotes]
  | cons c text ih =>
    rw [commasAfter_cons_iff] at h
    have hguard : (decide (c = ',') && !guarded) = false := by
      by_cases hc : c = ','
      · rw [h.1 hc, Bool.and_false]
      · rw [decide_eq_false hc, Bool.false_and]
    have htail : CommasAfter (!(guarded ^^ decide (c = '"'))) text := by
      convert h.2 using 1
      cases guarded <;> cases decide (c = '"') <;> rfl
    have hstate : ((guarded ^^ decide (c = '"')) ^^ oddQuotes text)
        = (guarded ^^ oddQuotes (c :: text)) := by
      rw [oddQuotes_cons]
      cases guarded <;> cases decide (c = '"') <;> cases oddQuotes text <;> rfl
    rw [List.cons_append, rawParts, hguard, if_neg Bool.false_ne_true, ih _ htail, hstate]
    rfl

/-- Where a comma is not guarded the cell that is being read ends inside the text. -/
theorem rawParts_of_not_commasAfter (guarded : Bool) {text : List Char}
    (h : ¬ CommasAfter (!guarded) text) :
    ∃ before after, text = before ++ ',' :: after ∧
      ∀ rest, (rawParts guarded (text ++ rest)).1 = before := by
  induction text generalizing guarded with
  | nil => exact absurd (commasAfter_nil _) h
  | cons c text ih =>
    by_cases hguard : (decide (c = ',') && !guarded) = true
    · have hc : c = ',' := by
        rw [Bool.and_eq_true, decide_eq_true_eq] at hguard
        exact hguard.1
      refine ⟨[], text, by rw [hc, List.nil_append], fun rest => ?_⟩
      rw [List.cons_append, rawParts, if_pos hguard]
    · have htail : ¬ CommasAfter (!(guarded ^^ decide (c = '"'))) text := by
        intro htail
        apply h
        rw [commasAfter_cons_iff]
        refine ⟨fun hc => ?_, ?_⟩
        · simpa [hc] using hguard
        · convert htail using 1
          cases guarded <;> cases decide (c = '"') <;> rfl
      obtain ⟨before, after, heq, hfirst⟩ := ih _ htail
      refine ⟨c :: before, after, by rw [heq, List.cons_append], fun rest => ?_⟩
      rw [List.cons_append, rawParts, if_neg hguard]
      exact congrArg (c :: ·) (hfirst rest)

theorem mem_rawParts {guarded : Bool} {text : List Char} :
    (∀ c ∈ (rawParts guarded text).1, c ∈ text) ∧
      ∀ part ∈ (rawParts guarded text).2, ∀ c ∈ part, c ∈ text := by
  induction text generalizing guarded with
  | nil => exact ⟨fun _ h => h, fun _ h => absurd h List.not_mem_nil⟩
  | cons d text ih =>
    rw [rawParts]
    split
    · refine ⟨fun _ h => absurd h List.not_mem_nil, fun part hpart c hc => ?_⟩
      rcases List.mem_cons.1 hpart with rfl | hpart
      · exact List.mem_cons_of_mem d (ih.1 c hc)
      · exact List.mem_cons_of_mem d (ih.2 part hpart c hc)
    · refine ⟨fun c hc => ?_, fun part hpart c hc => List.mem_cons_of_mem d (ih.2 part hpart c hc)⟩
      rcases List.mem_cons.1 hc with rfl | hc
      · exact List.mem_cons_self
      · exact List.mem_cons_of_mem d (ih.1 c hc)

theorem mem_of_mem_unwrap {raw : List Char} {c : Char} (h : c ∈ unwrap raw) : c ∈ raw := by
  have hclosing : c ∈ dropOpening raw := by
    rw [unwrap, dropClosing] at h
    split at h
    · exact (dropOpening raw).dropLast_sublist.mem h
    · exact h
  rw [dropOpening.eq_def] at hclosing
  split at hclosing
  · exact List.mem_cons_of_mem _ hclosing
  · exact hclosing

/-- The cells of a line hold characters of the line. -/
theorem mem_of_mem_split {line cell : List Char} {c : Char} (hcell : cell ∈ split line)
    (hc : c ∈ cell) : c ∈ line := by
  obtain ⟨raw, hraw, rfl⟩ := List.mem_map.1 hcell
  have hc : c ∈ raw := mem_of_mem_unwrap hc
  rcases List.mem_cons.1 hraw with rfl | hraw
  · exact mem_rawParts.1 c hc
  · exact mem_rawParts.2 raw hraw c hc

/-- Without quotes nothing guards a comma, so that each one ends a cell. -/
theorem comma_not_mem_rawParts {line : List Char} (h : '"' ∉ line) :
    ',' ∉ (rawParts false line).1 ∧ ∀ part ∈ (rawParts false line).2, ',' ∉ part := by
  induction line with
  | nil => exact ⟨List.not_mem_nil, nofun⟩
  | cons c rest ih =>
    rw [List.mem_cons, not_or] at h
    obtain ⟨hfirst, hlater⟩ := ih h.2
    rw [rawParts, Bool.not_false, Bool.and_true, decide_eq_false (Ne.symm h.1), Bool.xor_false]
    split
    · exact ⟨List.not_mem_nil, List.forall_mem_cons.2 ⟨hfirst, hlater⟩⟩
    · next hc =>
      rw [decide_eq_true_eq] at hc
      exact ⟨List.not_mem_cons_of_ne_of_not_mem (Ne.symm hc) hfirst, hlater⟩

theorem comma_not_mem_of_mem_split {line cell : List Char} (h : '"' ∉ line)
    (hcell : cell ∈ split line) : ',' ∉ cell := by
  obtain ⟨raw, hraw, rfl⟩ := List.mem_map.1 hcell
  intro hc
  have hc : ',' ∈ raw := mem_of_mem_unwrap hc
  rcases List.mem_cons.1 hraw with rfl | hraw
  · exact (comma_not_mem_rawParts h).1 hc
  · exact (comma_not_mem_rawParts h).2 raw hraw hc

/-! ### The cell as it is written -/

theorem length_unwrap_le (raw : List Char) : (unwrap raw).length ≤ raw.length := by
  have hopen : (dropOpening raw).length ≤ raw.length := by
    unfold dropOpening
    split <;> simp
  exact (length_dropClosing_le _).trans hopen

/-- The cells written as they stand are those that read back alone. -/
theorem split_eq_singleton_iff (cell : List Char) : split cell = [cell] ↔ Bare cell := by
  by_cases hcommas : CommasAfter true cell
  · have hparts := rawParts_append false hcommas []
    rw [List.append_nil, rawParts_nil, List.append_nil] at hparts
    simp only [split, hparts, List.map_cons, List.map_nil, List.cons.injEq, and_true,
      unwrap_eq_self_iff, Bare, hcommas, true_and]
  · refine ⟨fun h => ?_, fun h => absurd h.1 hcommas⟩
    obtain ⟨before, after, heq, hfirst⟩ := rawParts_of_not_commasAfter false hcommas
    have hcell : unwrap before = cell := by
      have hsplit := congrArg List.head? h
      rw [split, List.map_cons, List.head?_cons, ← List.append_nil cell, hfirst] at hsplit
      simpa using hsplit
    have hle := length_unwrap_le before
    rw [hcell, heq, List.length_append, List.length_cons] at hle
    omega

theorem bare_flatten {cell : List Char} : Bare (flatten cell) ↔ Bare cell := by
  have hchar : ∀ c : Char, (if c = '\n' ∨ c = '\r' then ' ' else c) = '"' ↔ c = '"' := by
    intro c
    split
    · next h => rcases h with rfl | rfl <;> decide
    · rfl
  rw [Bare, Bare, commasAfter_flatten]
  simp only [flatten, List.head?_map, List.getLast?_map, ne_eq, Option.map_eq_some_iff, hchar,
    exists_eq_right]

theorem encode_of_bare {cell : List Char} (h : Bare cell) : encode cell = flatten cell := by
  have hsplit : split (flatten cell) = [flatten cell] :=
    (split_eq_singleton_iff _).2 (bare_flatten.2 h)
  simp only [encode, hsplit, if_true, ite_self]

theorem encode_of_not_bare {cell : List Char} (h : ¬ Bare cell) :
    encode cell = wrap (flatten cell) := by
  have hflat : ¬ Bare (flatten cell) := fun hb => h (bare_flatten.1 hb)
  have hplain : ¬ (',' ∉ flatten cell ∧ '"' ∉ flatten cell) :=
    fun hp => hflat (bare_of_not_mem hp.1 hp.2)
  have hsplit : split (flatten cell) ≠ [flatten cell] :=
    fun hs => hflat ((split_eq_singleton_iff _).1 hs)
  simp only [encode, if_neg hplain, if_neg hsplit]

theorem unwrap_encode (cell : List Char) : unwrap (encode cell) = flatten cell := by
  by_cases h : Bare cell
  · rw [encode_of_bare h, unwrap_eq_self_iff]
    exact (bare_flatten.2 h).2
  · rw [encode_of_not_bare h, unwrap_wrap]

theorem oddQuotes_encode (cell : List Char) : oddQuotes (encode cell) = oddQuotes cell := by
  by_cases h : Bare cell
  · rw [encode_of_bare h, oddQuotes_flatten]
  · rw [encode_of_not_bare h, wrap, oddQuotes_cons, oddQuotes_append, oddQuotes_flatten]
    cases oddQuotes cell <;> rfl

theorem commasAfter_wrap {cell : List Char} :
    CommasAfter true (wrap cell) ↔ CommasAfter false cell := by
  rw [wrap, commasAfter_cons_iff]
  constructor
  · rintro ⟨-, h⟩ before after rfl
    have := h before (after ++ ['"']) (by simp)
    simpa using this
  · intro h
    refine ⟨fun hc => absurd hc (by decide), commasAfter_append h ?_⟩
    exact commasAfter_of_not_mem (by simp)

theorem commasAfter_encode_iff {cell : List Char} :
    CommasAfter true (encode cell) ↔ Guardable cell := by
  by_cases h : Bare cell
  · rw [encode_of_bare h, commasAfter_flatten]
    exact ⟨fun _ => .inr h, fun _ => h.1⟩
  · rw [encode_of_not_bare h, commasAfter_wrap, commasAfter_flatten]
    exact ⟨.inl, fun hg => hg.resolve_right h⟩

end DialogTable.Cell
