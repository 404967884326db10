import DialogTable.Compiler.Scan
import DialogTable.Proofs.Compiler.Subject
import DialogTable.Proofs.Json.Spaces

/-!
# One pass finds the subject

The copy in small letters has the same places as the message, so that every cut of the search falls
between two characters of the message. One visit of the word reads the mention that stands there, if
one does (`Scan.visit_eq`). A step leaves open what the mentions ahead decide (`Scan.step_spec`), so
that the search ends with the subject (`Scan.subject_eq`). The main statement `Scan.finds_subject`
says of any message that the search ends without a bad cut, and with which number.
-/

namespace DialogTable

/-! ### Small letters -/

namespace Text

theorem toLower_eq_or (c : Char) :
    c.toLower = c ∨ (65 ≤ c.toNat ∧ c.toNat ≤ 90) ∧ c.toLower.toNat = c.toNat + 32 := by
  unfold Char.toLower
  split
  · next h =>
    have hlow : 65 ≤ c.toNat := h.1
    have hhigh : c.toNat ≤ 90 := h.2
    refine .inr ⟨⟨hlow, hhigh⟩, ?_⟩
    show (c.val + 32).toNat = c.toNat + 32
    rw [UInt32.toNat_add]
    exact Nat.mod_eq_of_lt (show c.toNat + 32 < 4294967296 by omega)
  · exact .inl rfl

theorem utf8Size_toLower (c : Char) : c.toLower.utf8Size = c.utf8Size := by
  rcases toLower_eq_or c with heq | ⟨hrange, hlower⟩
  · rw [heq]
  · have hone {d : Char} (hd : d.toNat ≤ 127) : d.utf8Size = 1 :=
      Char.utf8Size_eq_one_iff.2 (UInt32.le_iff_toNat_le.2 hd)
    rw [hone (by omega), hone (by omega)]

/-- What holds of no letter does not depend on the case. -/
theorem apply_toLower {p : Char → Bool}
    (h : ∀ c : Char, 65 ≤ c.toNat ∧ c.toNat ≤ 90 ∨ 97 ≤ c.toNat ∧ c.toNat ≤ 122 → p c = false)
    (c : Char) : p c.toLower = p c := by
  rcases toLower_eq_or c with heq | ⟨hrange, hlower⟩
  · rw [heq]
  · rw [h c (.inl hrange), h c.toLower (.inr (by omega))]

theorem byteSize_foldCase (text : List Char) : byteSize (foldCase text) = byteSize text := by
  induction text with
  | nil => rfl
  | cons c rest ih =>
    rw [foldCase, List.map_cons, byteSize, utf8Size_toLower, byteSize, ← ih, foldCase]

theorem foldCase_append (a b : List Char) : foldCase (a ++ b) = foldCase a ++ foldCase b :=
  List.map_append

/-- The text in small letters is cut where the text is. -/
theorem cut_foldCase (before rest : List Char) :
    cut (byteSize before) (foldCase (before ++ rest)) = .ok (foldCase rest) := by
  rw [foldCase_append, ← byteSize_foldCase, cut_append]

end Text

namespace Compiler

namespace Mention

theorem isGap_toLower (c : Char) : isGap c.toLower = isGap c := by
  refine Text.apply_toLower (fun d hd => ?_) c
  have hne : ∀ sign : Char, sign.toNat < 65 → d ≠ sign := by
    rintro sign hsign rfl
    omega
  have hblank : Text.isBlank d = false := by
    by_contra hblank
    have hout := Json.toNat_of_isBlank (eq_true_of_ne_false hblank)
    omega
  rw [isGap, hblank]
  simp [hne '#' (by decide), hne ':' (by decide), hne '-' (by decide)]

theorem isDigit_toLower (c : Char) : Text.isDigit c.toLower = Text.isDigit c := by
  refine Text.apply_toLower (fun d hd => ?_) c
  by_contra h
  have hle := Text.toNat_le_of_isDigit (eq_true_of_ne_false h)
  omega

/-- The digits behind a gap are the same in small letters. -/
theorem takeWhile_dropWhile_foldCase (text : List Char) :
    ((Text.foldCase text).dropWhile isGap).takeWhile Text.isDigit =
      (text.dropWhile isGap).takeWhile Text.isDigit := by
  have hgap : isGap ∘ Char.toLower = isGap := funext isGap_toLower
  have hdigit : Text.isDigit ∘ Char.toLower = Text.isDigit := funext isDigit_toLower
  rw [Text.foldCase, List.dropWhile_map, List.takeWhile_map, hgap, hdigit]
  refine (List.map_congr_left fun c hc => ?_).trans (List.map_id' _)
  exact toLower_of_isNumeral (.inl (List.mem_takeWhile_imp hc))

/-! ### The next place of the word -/

theorem read_eq_none (text : List Char) (h : ¬ word.isPrefixOf (Text.foldCase text) = true) :
    read text = none := by
  rw [List.isPrefixOf_iff_prefix, List.prefix_iff_eq_take, Text.foldCase, ← List.map_take] at h
  exact if_neg fun heq => h heq.symm

theorem all_eq_nil_of_find? {ahead : List Char}
    (h : Text.find? word (Text.foldCase ahead) = none) : all ahead = [] := by
  induction ahead with
  | nil => rfl
  | cons c rest ih =>
    rw [Text.foldCase, List.map_cons, Text.find?] at h
    split at h
    · cases h
    · next hword =>
      rw [all, read_eq_none (c :: rest) hword, ih (Option.map_eq_none_iff.1 h)]
      rfl

/-- In front of the place that is found no mention begins. -/
theorem exists_of_find? {ahead : List Char} {found : Nat}
    (h : Text.find? word (Text.foldCase ahead) = some found) :
    ∃ skipped spelled rest, ahead = skipped ++ (spelled ++ rest) ∧
      Text.foldCase spelled = word ∧ Text.byteSize skipped = found ∧
      all ahead = (read (spelled ++ rest)).toList ++ all rest := by
  induction ahead generalizing found with
  | nil => cases h
  | cons c rest ih =>
    rw [Text.foldCase, List.map_cons, Text.find?] at h
    split at h
    · next hword =>
      obtain rfl := Option.some.inj h
      have hspelled : Text.foldCase ((c :: rest).take word.length) = word := by
        rw [Text.foldCase, List.map_take, eq_comm, ← List.prefix_iff_eq_take]
        exact List.isPrefixOf_iff_prefix.1 hword
      refine ⟨[], (c :: rest).take word.length, (c :: rest).drop word.length,
        (List.take_append_drop _ _).symm, hspelled, rfl, ?_⟩
      rw [← all_append_of_word hspelled, List.take_append_drop]
    · next hword =>
      obtain ⟨later, hlater, rfl⟩ := Option.map_eq_some_iff.1 h
      obtain ⟨skipped, spelled, behind, rfl, hspelled, hskipped, hall⟩ := ih hlater
      refine ⟨c :: skipped, spelled, behind, rfl, hspelled, ?_, ?_⟩
      · rw [Text.byteSize, hskipped, Text.utf8Size_toLower]
      · have hread := read_eq_none (c :: (skipped ++ (spelled ++ behind))) hword
        rw [all, hread, Option.toList_none, List.nil_append, hall]

end Mention

namespace Scan

/-! ### One step -/

/-- What a search is to come to, by the mentions that are still ahead. -/
def answer (first : Option Int) (ahead : List Mention) : Option Int :=
  ((ahead.find? (·.capital)).map (·.number)).or (first.or (ahead.head?.map (·.number)))

theorem answer_nil (first : Option Int) : answer first [] = first := by
  rw [answer, List.find?_nil, Option.map_none, Option.none_or, List.head?_nil, Option.map_none,
    Option.or_none]

theorem answer_none (text : List Char) :
    answer none (Mention.all text) = Mention.subject text := by
  rw [answer, Option.none_or, Mention.subject, Option.map_or]

theorem answer_cons_of_capital {mention : Mention} (h : mention.capital = true)
    (first : Option Int) (ahead : List Mention) :
    answer first (mention :: ahead) = some mention.number := by
  rw [answer, List.find?_cons_of_pos h, Option.map_some, Option.some_or]

/-- A mention that does not name the subject counts if it is the first. -/
theorem answer_cons_of_small {mention : Mention} (h : mention.capital = false)
    (first : Option Int) (ahead : List Mention) :
    answer first (mention :: ahead) = answer (first.or (some mention.number)) ahead := by
  have hsmall : ¬ mention.capital = true := Bool.eq_false_iff.1 h
  rw [answer, List.find?_cons_of_neg hsmall, List.head?_cons, Option.map_some, answer,
    Option.or_assoc, Option.some_or]

section Visit

variable {before spelled rest : List Char} {first : Option Int}

/-- A visit of the word reads the mention that stands there. -/
theorem visit_eq (h : Text.foldCase spelled = Mention.word) :
    let message := before ++ (spelled ++ rest)
    let start := Text.byteSize (before ++ spelled)
    visit message (Text.foldCase message) first (Text.byteSize before) =
      .ok (match Mention.read (spelled ++ rest) with
        | none => .inr { first, start }
        | some mention =>
          if mention.capital then .inl (some mention.number)
          else .inr { first := first.or (some mention.number), start }) := by
  intro message start
  have hsize : Text.byteSize before + Text.byteSize Mention.word = start := by
    rw [← h, Text.byteSize_foldCase, ← Text.byteSize_append]
  have hbehind : Text.cut start (Text.foldCase message) = .ok (Text.foldCase rest) := by
    rw [show message = (before ++ spelled) ++ rest from (List.append_assoc ..).symm]
    exact Text.cut_foldCase (before ++ spelled) rest
  have hspelled : Text.cut (Text.byteSize before) message = .ok (spelled ++ rest) :=
    Text.cut_append before (spelled ++ rest)
  have hcapital : Mention.capitalWord.isPrefixOf (spelled ++ rest) =
      decide (spelled = Mention.capitalWord) := by
    have hlength : spelled.length = Mention.capitalWord.length := by
      have hword := congrArg List.length h
      rwa [Text.foldCase, List.length_map] at hword
    rw [Bool.eq_iff_iff, List.isPrefixOf_iff_prefix, List.prefix_iff_eq_take, ← hlength,
      List.take_left, decide_eq_true_eq, eq_comm]
  simp only [visit, hsize, hbehind, hspelled, hcapital, Mention.read_append h, bind, Except.bind,
    Mention.takeWhile_dropWhile_foldCase]
  cases Text.readNumber ((rest.dropWhile Mention.isGap).takeWhile Text.isDigit) with
  | none => rfl
  | some number =>
    simp only [Option.map_some]
    split
    · rfl
    · rfl

end Visit

/-- A step ends with the answer, or goes on behind a mention and leaves the answer open. -/
theorem step_spec (before ahead : List Char) (first : Option Int) :
    let message := before ++ ahead
    let next := step message (Text.foldCase message) { first, start := Text.byteSize before }
    next = .ok (.inl (answer first (Mention.all ahead))) ∨
      ∃ later more rest, ahead = more ++ rest ∧ rest.length < ahead.length ∧
        next = .ok (.inr { first := later, start := Text.byteSize (before ++ more) }) ∧
        answer later (Mention.all rest) = answer first (Mention.all ahead) := by
  intro message next
  have hahead : Text.cut (Text.byteSize before) (Text.foldCase message) =
      .ok (Text.foldCase ahead) :=
    Text.cut_foldCase before ahead
  cases hfound : Text.find? Mention.word (Text.foldCase ahead) with
  | none =>
    left
    have hnext : next = .ok (.inl first) := by
      simp only [next, step, hahead, hfound, bind, Except.bind, pure, Except.pure]
    rw [hnext, Mention.all_eq_nil_of_find? hfound, answer_nil]
  | some found =>
    obtain ⟨skipped, spelled, rest, rfl, hspelled, rfl, hall⟩ := Mention.exists_of_find? hfound
    have hnext : next = visit message (Text.foldCase message) first
        (Text.byteSize (before ++ skipped)) := by
      simp only [next, step, hahead, hfound, bind, Except.bind, Text.byteSize_append]
    have hmessage : message = (before ++ skipped) ++ (spelled ++ rest) :=
      (List.append_assoc ..).symm
    have hpos : 0 < spelled.length := by
      have hword := congrArg List.length hspelled
      rw [Text.foldCase, List.length_map] at hword
      exact hword ▸ (by decide : 0 < Mention.word.length)
    have hshorter : rest.length < (skipped ++ (spelled ++ rest)).length := by
      simp only [List.length_append]
      omega
    rw [hmessage, visit_eq hspelled, List.append_assoc] at hnext
    cases hread : Mention.read (spelled ++ rest) with
    | none =>
      refine .inr ⟨first, skipped ++ spelled, rest, (List.append_assoc ..).symm, hshorter, ?_, ?_⟩
      · rw [hnext, hread]
      · rw [hall, hread, Option.toList_none, List.nil_append]
    | some mention =>
      rw [hread, Option.toList_some, List.singleton_append] at hall
      cases hcapital : mention.capital with
      | true =>
        left
        rw [hall, answer_cons_of_capital hcapital, hnext, hread]
        simp only [hcapital, if_true]
      | false =>
        refine .inr ⟨first.or (some mention.number), skipped ++ spelled, rest,
          (List.append_assoc ..).symm, hshorter, ?_, ?_⟩
        · rw [hnext, hread]
          simp [hcapital]
        · rw [hall, answer_cons_of_small hcapital]

/-! ### Until the end -/

section Run

variable {message small : List Char} {scan : Scan}

theorem run_of_end {found : Option Int} (h : step message small scan = .ok (.inl found)) :
    run message small scan = .ok found := by
  rw [run]
  split
  · next hstep => cases h.symm.trans hstep
  · next hstep =>
    cases h.symm.trans hstep
    rfl
  · next hstep => cases h.symm.trans hstep

theorem run_of_next {next : Scan} (h : step message small scan = .ok (.inr next)) :
    run message small scan = run message small next := by
  rw [run]
  split
  · next hstep => cases h.symm.trans hstep
  · next hstep => cases h.symm.trans hstep
  · next hstep =>
    cases h.symm.trans hstep
    rfl

end Run

/-- From any place between two characters the search comes to the answer. -/
theorem run_eq (before ahead : List Char) (first : Option Int) :
    run (before ++ ahead) (Text.foldCase (before ++ ahead))
        { first, start := Text.byteSize before } =
      .ok (answer first (Mention.all ahead)) := by
  -- The message stays the same while characters pass from what is ahead to what is before.
  induction hlength : ahead.length using Nat.strong_induction_on
    generalizing before ahead first with
  | _ length ih =>
    subst hlength
    rcases step_spec before ahead first with hend | ⟨later, more, rest, rfl, hlt, hnext, hanswer⟩
    · exact run_of_end hend
    · rw [run_of_next hnext, ← hanswer, ← List.append_assoc]
      exact ih rest.length hlt (before ++ more) rest later rfl

theorem subject_eq (message : List Char) : subject message = .ok (Mention.subject message) := by
  rw [← answer_none]
  exact run_eq [] message none

/-- **The search finds the subject.** Whatever a message contains, the search ends, and every cut
falls between two characters of the message. What it ends with is the number of the first mention
with a capital, or if there is none the number of the first mention, or none if there is no mention
at all; it is also what the replies of the compiler are read for. -/
theorem finds_subject (message : List Char) :
    subject message = .ok (Mention.subject message) ∧
      ∀ result, subject message = .ok result ↔ Mention.IsSubject message result := by
  refine ⟨subject_eq message, fun result => ?_⟩
  rw [subject_eq, ← Mention.subject_eq_iff, Except.ok.injEq]

/-- A mention that overflows, a letter of two bytes and a mention behind a minus sign. -/
example :
    subject "node 9223372036854775808, ünode#:-7 and NODE 3".toList = .ok (some 7) := by
  decide +kernel

end Scan

end Compiler

end DialogTable
