import DialogTable.Proofs.Compiler.Mention

/-!
# The subject of a message

A mention stands at a place of a message where the word stands in any case, and behind it a gap and
the whole run of digits of a number (`Mention.StandsAt`). The subject is the number of the first
mention with a capital, or if there is none the number of the first of all (`Mention.IsSubject`).
This and nothing else is what a message is read for (`Mention.subject_eq_iff`).
-/

namespace DialogTable.Compiler.Mention

/-- The word, a gap and the digits of a number stand in a text, behind some characters. The digits
go on as far as they can, and 64 bits are enough for their number. -/
def StandsAt (mention : Mention) (text : List Char) (place : Nat) : Prop :=
  ∃ before spelled gap digits rest : List Char,
    text = before ++ (spelled ++ (gap ++ (digits ++ rest))) ∧ before.length = place ∧
      Text.foldCase spelled = word ∧ (mention.capital = true ↔ spelled = capitalWord) ∧
      (∀ c ∈ gap, isGap c = true) ∧ digits ≠ [] ∧ (∀ c ∈ digits, Text.isDigit c = true) ∧
      (∀ c, rest.head? = some c → Text.isDigit c = false) ∧
      mention.number = Nat.ofDigitChars 10 digits 0 ∧ mention.number < 9223372036854775808

/-- The number that a text is about, or none. -/
inductive IsSubject (text : List Char) : Option Int → Prop
  /-- The first mention with a capital. -/
  | capital {mention : Mention} {place : Nat} (here : mention.StandsAt text place)
      (spelled : mention.capital = true)
      (first : ∀ earlier < place, ∀ other : Mention, other.StandsAt text earlier →
        other.capital = false) :
      IsSubject text (some mention.number)
  /-- The first mention, where none has a capital. -/
  | small {mention : Mention} {place : Nat} (here : mention.StandsAt text place)
      (first : ∀ earlier < place, ∀ other : Mention, ¬ other.StandsAt text earlier)
      (all : ∀ anywhere, ∀ other : Mention, other.StandsAt text anywhere → other.capital = false) :
      IsSubject text (some mention.number)
  /-- There is no mention. -/
  | none (nowhere : ∀ place, ∀ mention : Mention, ¬ mention.StandsAt text place) :
      IsSubject text none

/-! ### Where mentions stand -/

theorem StandsAt.read_drop {mention : Mention} {text : List Char} {place : Nat}
    (h : mention.StandsAt text place) : read (text.drop place) = some mention := by
  obtain ⟨before, spelled, gap, digits, rest, rfl, rfl, hspelled, hcapital, hgap, hne, hdigits,
    hrest, hnumber, hlt⟩ := h
  have hread : Text.readNumber digits = some mention.number :=
    (Text.readNumber_eq_some_iff hdigits).2 ⟨hne, hnumber, hlt⟩
  rw [List.drop_left, read_append hspelled, takeWhile_dropWhile_append hgap hne hdigits hrest,
    hread, Option.map_some]
  have hsame : decide (spelled = capitalWord) = mention.capital := by
    rw [Bool.eq_iff_iff, decide_eq_true_eq, hcapital]
  rw [hsame]

theorem standsAt_of_read_drop {mention : Mention} {text : List Char} {place : Nat}
    (h : read (text.drop place) = some mention) : mention.StandsAt text place := by
  generalize hahead : text.drop place = ahead at h
  rw [read] at h
  split at h
  · next hspelled =>
    obtain ⟨number, hnumber, rfl⟩ := Option.map_eq_some_iff.1 h
    have hplace : (text.take place).length = place := by
      rw [List.length_take, Nat.min_eq_left]
      by_contra hlong
      rw [List.drop_eq_nil_of_le (by omega)] at hahead
      rw [← hahead] at hspelled
      exact absurd hspelled (by decide)
    generalize htail : ahead.drop word.length = tail at hnumber
    have hdigits : ∀ c ∈ (tail.dropWhile isGap).takeWhile Text.isDigit, Text.isDigit c = true :=
      fun _ => List.mem_takeWhile_imp
    obtain ⟨hne, hvalue, hlt⟩ := (Text.readNumber_eq_some_iff hdigits).1 hnumber
    refine ⟨text.take place, ahead.take word.length, tail.takeWhile isGap,
      (tail.dropWhile isGap).takeWhile Text.isDigit, (tail.dropWhile isGap).dropWhile Text.isDigit,
      ?_, hplace, hspelled, decide_eq_true_iff, fun _ => List.mem_takeWhile_imp, hne, hdigits,
      fun c hc => ?_, hvalue, hlt⟩
    · rw [List.takeWhile_append_dropWhile, List.takeWhile_append_dropWhile, ← htail,
        List.take_append_drop, ← hahead, List.take_append_drop]
    · have hstop := List.head?_dropWhile_not Text.isDigit (tail.dropWhile isGap)
      rw [hc] at hstop
      exact hstop
  · cases h

theorem standsAt_iff {mention : Mention} {text : List Char} {place : Nat} :
    mention.StandsAt text place ↔ read (text.drop place) = some mention :=
  ⟨StandsAt.read_drop, standsAt_of_read_drop⟩

/-! ### The first of some mentions -/

theorem mem_all_iff {mention : Mention} {text : List Char} :
    mention ∈ all text ↔ ∃ place, mention.StandsAt text place := by
  simp only [standsAt_iff]
  induction text with
  | nil =>
    have hnil : read [] = none := rfl
    refine ⟨nofun, fun ⟨place, hread⟩ => ?_⟩
    rw [List.drop_nil, hnil] at hread
    cases hread
  | cons c rest ih =>
    rw [all, List.mem_append, Option.mem_toList, ih]
    constructor
    · rintro (hread | ⟨place, hread⟩)
      · exact ⟨0, hread⟩
      · exact ⟨place + 1, hread⟩
    · rintro ⟨place, hread⟩
      cases place with
      | zero => exact .inl hread
      | succ place => exact .inr ⟨place, hread⟩

/-- What is found among the mentions stands at some place, and none like it at an earlier one. -/
theorem exists_of_find?_all {p : Mention → Bool} {text : List Char} {mention : Mention}
    (h : (all text).find? p = some mention) :
    p mention = true ∧ ∃ place, mention.StandsAt text place ∧
      ∀ earlier < place, ∀ other : Mention, other.StandsAt text earlier → p other = false := by
  simp only [standsAt_iff]
  induction text with
  | nil => cases h
  | cons c rest ih =>
    rw [all, List.find?_append] at h
    rcases Option.or_eq_some_iff.1 h with hhere | ⟨hhere, hlater⟩
    · have hread := Option.mem_toList.1 (List.mem_of_find?_eq_some hhere)
      exact ⟨List.find?_some hhere, 0, hread, fun earlier h => absurd h (Nat.not_lt_zero earlier)⟩
    · obtain ⟨hp, place, hread, hfirst⟩ := ih hlater
      refine ⟨hp, place + 1, hread, fun earlier hearlier other hother => ?_⟩
      cases earlier with
      | zero =>
        exact Bool.eq_false_iff.2 (List.find?_eq_none.1 hhere other (Option.mem_toList.2 hother))
      | succ earlier => exact hfirst earlier (Nat.lt_of_succ_lt_succ hearlier) other hother

/-! ### The subject -/

theorem isSubject_subject (text : List Char) : IsSubject text (subject text) := by
  rw [subject]
  cases hcapital : (all text).find? (·.capital) with
  | some mention =>
    obtain ⟨hspelled, place, here, hfirst⟩ := exists_of_find?_all hcapital
    exact .capital here hspelled hfirst
  | none =>
    have hsmall (place : Nat) (other : Mention) (h : other.StandsAt text place) :
        other.capital = false :=
      Bool.eq_false_iff.2 (List.find?_eq_none.1 hcapital other (mem_all_iff.2 ⟨place, h⟩))
    cases hhead : (all text).head? with
    | some mention =>
      have hfound : (all text).find? (fun _ => true) = some mention := by
        rw [← hhead]
        cases all text with
        | nil => rfl
        | cons _ _ => rfl
      obtain ⟨-, place, here, hfirst⟩ := exists_of_find?_all hfound
      exact .small here
        (fun earlier hlt other h => Bool.false_ne_true (hfirst earlier hlt other h).symm) hsmall
    | none =>
      refine .none fun place mention h => ?_
      have hmem := mem_all_iff.2 ⟨place, h⟩
      rw [List.head?_eq_none_iff.1 hhead] at hmem
      exact List.not_mem_nil hmem

theorem StandsAt.eq {mention other : Mention} {text : List Char} {place : Nat}
    (h : mention.StandsAt text place) (hother : other.StandsAt text place) : mention = other :=
  Option.some.inj (h.read_drop.symm.trans hother.read_drop)

/-- A text is about one thing. -/
theorem IsSubject.unique {text : List Char} {a b : Option Int} (ha : IsSubject text a)
    (hb : IsSubject text b) : a = b := by
  cases ha with
  | @capital mention place here spelled first =>
    cases hb with
    | @capital other place' here' spelled' first' =>
      rcases Nat.lt_trichotomy place place' with hlt | rfl | hlt
      · exact nomatch spelled.symm.trans (first' place hlt mention here)
      · rw [here.eq here']
      · exact nomatch spelled'.symm.trans (first place' hlt other here')
    | small _ _ all => exact nomatch spelled.symm.trans (all place mention here)
    | none nowhere => exact absurd here (nowhere place mention)
  | @small mention place here first all =>
    cases hb with
    | @capital other place' here' spelled' _ =>
      exact nomatch spelled'.symm.trans (all place' other here')
    | @small other place' here' first' _ =>
      rcases Nat.lt_trichotomy place place' with hlt | rfl | hlt
      · exact absurd here (first' place hlt mention)
      · rw [here.eq here']
      · exact absurd here' (first place' hlt other)
    | none nowhere => exact absurd here (nowhere place mention)
  | none nowhere =>
    cases hb with
    | @capital other place' here' _ _ => exact absurd here' (nowhere place' other)
    | @small other place' here' _ _ => exact absurd here' (nowhere place' other)
    | none _ => rfl

theorem subject_eq_iff {text : List Char} {number : Option Int} :
    subject text = number ↔ IsSubject text number :=
  ⟨fun h => h ▸ isSubject_subject text, (isSubject_subject text).unique⟩

end DialogTable.Compiler.Mention
