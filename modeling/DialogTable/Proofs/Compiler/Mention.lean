import DialogTable.Compiler.Http
import DialogTable.Proofs.Text.Numeral

/-!
# Messages that are read back

A message about a node begins with the capital word and the number of the node, so that this is the
first mention in it and counts before all others, whatever the message says (`subject_text`). But a
minus sign is taken for a gap between the word and the number: a message about a node below zero is
read as one about the node with the opposite number, and one about the least number of 64 bits is
read by the other mentions in it. The main statement `subject_text_iff` says exactly which messages
are read back, alone and in the body of a rejection.
-/

namespace DialogTable.Compiler

namespace Mention

/-! ### Mentions from left to right -/

/-- A mention begins with the letter n in either case. -/
theorem read_cons_of_ne {c : Char} (h : c.toLower ≠ 'n') (rest : List Char) :
    read (c :: rest) = none := by
  rw [read, if_neg]
  intro hword
  have hhead := congrArg List.head? hword
  exact h (Option.some.inj hhead)

theorem all_cons_of_ne {c : Char} (h : c.toLower ≠ 'n') (rest : List Char) :
    all (c :: rest) = all rest := by
  rw [all, read_cons_of_ne h, Option.toList_none, List.nil_append]

/-- Text in which no mention can begin adds none. -/
theorem all_append {front : List Char} (h : ∀ c ∈ front, c.toLower ≠ 'n') (rest : List Char) :
    all (front ++ rest) = all rest := by
  induction front with
  | nil => rfl
  | cons c front ih =>
    rw [List.cons_append, all_cons_of_ne (h c List.mem_cons_self),
      ih fun d hd => h d (List.mem_cons_of_mem c hd)]

/-- The word in any case is a mention if a number follows it. -/
theorem read_append {spelled : List Char} (h : Text.foldCase spelled = word) (rest : List Char) :
    read (spelled ++ rest) =
      (Text.readNumber ((rest.dropWhile isGap).takeWhile Text.isDigit)).map
        fun number => { capital := spelled = capitalWord, number } := by
  have hlength : spelled.length = word.length := by
    rw [← h, Text.foldCase, List.length_map]
  rw [read, ← hlength, List.take_left, List.drop_left, if_pos h]

/-- Inside of the word no mention begins. -/
theorem all_append_of_word {spelled : List Char} (h : Text.foldCase spelled = word)
    (rest : List Char) :
    all (spelled ++ rest) = (read (spelled ++ rest)).toList ++ all rest := by
  match spelled, h with
  | n :: ode, h =>
    obtain ⟨-, hode⟩ := List.cons.inj h
    have hother : ∀ c ∈ ode, c.toLower ≠ 'n' := by
      intro c hc
      have hmem : c.toLower ∈ ['o', 'd', 'e'] := hode ▸ List.mem_map_of_mem hc
      intro heq
      rw [heq] at hmem
      exact absurd hmem (by decide)
    rw [List.cons_append, all, all_append hother]

/-- A mention with a capital in front of everything is the subject. -/
theorem subject_of_all_eq_cons {text : List Char} {number : Int} {rest : List Mention}
    (h : all text = { capital := true, number } :: rest) : subject text = some number := by
  rw [subject, h]
  rfl

theorem subject_congr {a b : List Char} (h : all a = all b) : subject a = subject b := by
  rw [subject, subject, h]

/-! ### Numbers that are mentioned -/

theorem isGap_of_isDigit {c : Char} (h : Text.isDigit c = true) : isGap c = false := by
  have hne : ∀ d, Text.isDigit d = false → c ≠ d := by
    rintro d hd rfl
    exact Bool.false_ne_true (hd.symm.trans h)
  rw [isGap, Text.isBlank_of_isNumeral (.inl h)]
  simp [hne '#' (by decide), hne ':' (by decide), hne '-' (by decide)]

/-- The gap and the digits are found again. -/
theorem takeWhile_dropWhile_append {gap digits rest : List Char}
    (hgap : ∀ c ∈ gap, isGap c = true) (hne : digits ≠ [])
    (hdigits : ∀ c ∈ digits, Text.isDigit c = true)
    (hrest : ∀ c, rest.head? = some c → Text.isDigit c = false) :
    ((gap ++ (digits ++ rest)).dropWhile isGap).takeWhile Text.isDigit = digits := by
  obtain ⟨d, more, rfl⟩ := List.exists_cons_of_ne_nil hne
  have hfirst : ¬ isGap d = true := by
    rw [isGap_of_isDigit (hdigits d List.mem_cons_self)]
    exact Bool.false_ne_true
  have hend : rest.takeWhile Text.isDigit = [] := by
    cases rest with
    | nil => rfl
    | cons c rest =>
      refine List.takeWhile_cons_of_neg ?_
      rw [hrest c rfl]
      exact Bool.false_ne_true
  rw [List.dropWhile_append_of_pos hgap, List.cons_append, List.dropWhile_cons_of_neg hfirst,
    ← List.cons_append, List.takeWhile_append_of_pos hdigits, hend, List.append_nil]

theorem nonneg_of_readNumber_takeWhile {text : List Char} {n : Int}
    (h : Text.readNumber (text.takeWhile Text.isDigit) = some n) : 0 ≤ n := by
  obtain ⟨digits, m, -, hsign⟩ := Text.exists_of_readInteger (Option.filter_eq_some_iff.1 h).1
  have hdigit : ∀ c ∈ text.takeWhile Text.isDigit, Text.isDigit c = true :=
    fun c hc => List.mem_takeWhile_imp hc
  rcases hsign with ⟨htext, -⟩ | ⟨-, rfl⟩ | ⟨-, rfl⟩
  · rw [htext] at hdigit
    exact absurd (hdigit '-' List.mem_cons_self) (by decide)
  · exact Int.natCast_nonneg m
  · exact Int.natCast_nonneg m

/-- No mention has a number below zero. -/
theorem nonneg_of_mem_all {text : List Char} {mention : Mention} (h : mention ∈ all text) :
    0 ≤ mention.number := by
  induction text with
  | nil => exact absurd h List.not_mem_nil
  | cons c rest ih =>
    rw [all, List.mem_append, Option.mem_toList] at h
    rcases h with hread | hrest
    · rw [read] at hread
      split at hread
      · obtain ⟨number, hnumber, rfl⟩ := Option.map_eq_some_iff.1 hread
        exact nonneg_of_readNumber_takeWhile hnumber
      · cases hread
    · exact ih hrest

theorem nonneg_of_subject {text : List Char} {n : Int} (h : subject text = some n) : 0 ≤ n := by
  obtain ⟨mention, hmention, rfl⟩ := Option.map_eq_some_iff.1 h
  have hmem : mention ∈ all text := by
    rcases Option.or_eq_some_iff.1 hmention with hcapital | ⟨-, hfirst⟩
    · exact List.mem_of_find?_eq_some hcapital
    · exact List.mem_of_head? hfirst
  exact nonneg_of_mem_all hmem

/-! ### The text of a message -/

theorem toList_text (n : Int) (message : String) :
    (Complaint.text { node := some n, message }).toList =
      capitalWord ++ ' ' :: ((toString n).toList ++ ':' :: ' ' :: message.toList) := by
  show (toString "Node " ++ toString n ++ toString ": " ++ toString message).toList = _
  simp only [String.toList_append, List.append_assoc]
  rfl

/-- The digits of a number are found behind a gap and up to the colon. A minus sign belongs to the
gap. -/
theorem takeWhile_dropWhile_toString (n : Int) (rest : List Char) :
    ((' ' :: ((toString n).toList ++ ':' :: rest)).dropWhile isGap).takeWhile Text.isDigit =
      Nat.toDigits 10 n.natAbs := by
  have hfound (gap : List Char) (hgap : ∀ c ∈ gap, isGap c = true) :
      ((gap ++ (Nat.toDigits 10 n.natAbs ++ ':' :: rest)).dropWhile isGap).takeWhile Text.isDigit =
        Nat.toDigits 10 n.natAbs := by
    refine takeWhile_dropWhile_append hgap Nat.toDigits_ne_nil
      (fun c hc => Text.isDigit_of_mem_toDigits hc) fun c hc => ?_
    obtain rfl := Option.some.inj hc
    decide
  rw [Text.toList_toString]
  split
  · next hn =>
    rw [show n.toNat = n.natAbs by omega]
    exact hfound [' '] (List.forall_mem_singleton.2 (by decide))
  · next hn =>
    rw [show (-n).toNat = n.natAbs by omega]
    exact hfound [' ', '-']
      (List.forall_mem_cons.2 ⟨by decide, List.forall_mem_singleton.2 (by decide)⟩)

theorem readNumber_toDigits (n : Nat) :
    Text.readNumber (Nat.toDigits 10 n) =
      if (n : Int) < 9223372036854775808 then some (n : Int) else none := by
  have hread : Text.readInteger (Nat.toDigits 10 n) = some (n : Int) := by
    have htext := Text.readInteger_toString (n : Int)
    rwa [Text.toList_toString, if_pos (Int.natCast_nonneg n), Int.toNat_natCast] at htext
  have hrange : Text.InRange64 (n : Int) ↔ (n : Int) < 9223372036854775808 :=
    ⟨And.right, fun h => ⟨by omega, h⟩⟩
  rw [Text.readNumber, hread, Option.filter_some]
  simp only [decide_eq_true_eq, hrange]

theorem toLower_of_isNumeral {c : Char} (h : Text.IsNumeral c) : c.toLower = c := by
  refine dif_neg ?_
  rintro ⟨hlow, -⟩
  have hlow : 65 ≤ c.toNat := hlow
  rcases h with h | rfl
  · have hhigh := Text.toNat_le_of_isDigit h
    omega
  · exact absurd hlow (by decide)

/-- Between the capital word and the message no other mention begins. -/
theorem all_text (n : Int) (message : String) :
    all (Complaint.text { node := some n, message }).toList =
      (read (Complaint.text { node := some n, message }).toList).toList ++ all message.toList := by
  have hend : ∀ c ∈ [':', ' '], c.toLower ≠ 'n' :=
    List.forall_mem_cons.2 ⟨by decide, List.forall_mem_singleton.2 (by decide)⟩
  have hfront : ∀ c ∈ ' ' :: ((toString n).toList ++ [':', ' ']), c.toLower ≠ 'n' := by
    intro c hc
    rcases List.mem_cons.1 hc with rfl | hc
    · decide
    · rcases List.mem_append.1 hc with hc | hc
      · rw [toLower_of_isNumeral (Text.isNumeral_of_mem_toString hc)]
        rintro rfl
        exact Text.not_mem_toString (by decide) n hc
      · exact hend c hc
  have hskip := all_append hfront message.toList
  rw [toList_text, all_append_of_word (by decide), ← hskip, List.cons_append, List.append_assoc]
  rfl

/-- What a message about a node is read as: the number without its sign, or if that is too great the
node that the message itself mentions. -/
theorem subject_text (n : Int) (message : String) :
    subject (Complaint.text { node := some n, message }).toList =
      if (n.natAbs : Int) < 9223372036854775808 then some (n.natAbs : Int)
      else subject message.toList := by
  have hall := all_text n message
  rw [toList_text, read_append (by decide), takeWhile_dropWhile_toString, readNumber_toDigits,
    ← toList_text, decide_eq_true rfl] at hall
  split
  · next hlt =>
    rw [if_pos hlt] at hall
    exact subject_of_all_eq_cons hall
  · next hlt =>
    rw [if_neg hlt] at hall
    exact subject_congr hall

/-- A message about a node of 64 bits is read back exactly if the node is not below zero. -/
theorem subject_text_eq_iff {n : Int} (h : Text.InRange64 n) (message : String) :
    subject (Complaint.text { node := some n, message }).toList = some n ↔ 0 ≤ n := by
  constructor
  · exact nonneg_of_subject
  · intro hn
    have habs : (n.natAbs : Int) = n := Int.natAbs_of_nonneg hn
    rw [subject_text, habs, if_pos h.2]

end Mention

namespace Http

/-! ### Bodies of rejections -/

/-- The messages that a rejection lists, if it lists plain texts and nothing else. -/
def listedTextsWith? (read : String → Option Json) (body : String) : Option (List String) :=
  (((read body).bind (Json.get? "errors")).bind Json.items?).bind (·.mapM Json.string?)

/-- The messages that a rejection lists by the reader of this library. -/
def listedTexts? (body : String) : Option (List String) :=
  listedTextsWith? Json.ofText? body

theorem eq_map_string_of_mapM {items : List Json} {texts : List String}
    (h : items.mapM Json.string? = some texts) : items = texts.map .string := by
  induction items generalizing texts with
  | nil =>
    obtain rfl := Option.some.inj h
    rfl
  | cons item rest ih =>
    rw [List.mapM_cons] at h
    cases item with
    | string text =>
      obtain ⟨first, hfirst, h⟩ := Option.bind_eq_some_iff.1 h
      obtain ⟨later, hlater, h⟩ := Option.bind_eq_some_iff.1 h
      obtain rfl := Option.some.inj hfirst
      obtain rfl := Option.some.inj h
      rw [List.map_cons, ih hlater]
    | _ => cases h

theorem complaintsWith_of_listedTexts {read : String → Option Json} {body : String}
    {texts : List String} (h : listedTextsWith? read body = some texts) :
    complaintsWith read body =
      texts.map fun text => { node := Mention.subject text.toList, message := text } := by
  obtain ⟨items, hitems, htexts⟩ := Option.bind_eq_some_iff.1 h
  rw [complaintsWith, hitems, eq_map_string_of_mapM htexts]
  show (texts.map Json.string).map complaint = _
  rw [List.map_map]
  rfl

/-- Messages that are listed by their texts are read back if each text is keyed to its own node. -/
theorem complaintsWith_eq_map_iff {read : String → Option Json} {body : String}
    {told : List Complaint} (h : listedTextsWith? read body = some (told.map Complaint.text)) :
    complaintsWith read body =
        told.map (fun complaint => { node := complaint.node, message := complaint.text }) ↔
      ∀ complaint ∈ told, Mention.subject complaint.text.toList = complaint.node := by
  rw [complaintsWith_of_listedTexts h, List.map_map, List.map_inj_left]
  simp

end Http

/-- **Which messages are read back.** The text of a message about a node of 64 bits is read back to
this node exactly if the node is not below zero; below zero it is read as a message about the node
with the opposite number, and for the least number of all by the mentions in the message. So the
body of a rejection that lists the texts of messages is read with each text keyed to its own node
exactly if no node is below zero, by any reader of JSON and by the one of this library. -/
theorem Mention.subject_text_iff (messages : List (Int × String))
    (hrange : ∀ message ∈ messages, Text.InRange64 message.1) :
    let told := messages.map fun message =>
      ({ node := some message.1, message := message.2 } : Complaint)
    (∀ message ∈ messages,
      let found := Mention.subject
        (Complaint.text { node := some message.1, message := message.2 }).toList
      (found = some message.1 ↔ 0 ≤ message.1) ∧
      (message.1 < 0 → found =
        if message.1 = -9223372036854775808 then Mention.subject message.2.toList
        else some (-message.1))) ∧
    (∀ (read : String → Option Json) (body : String),
      Http.listedTextsWith? read body = some (told.map Complaint.text) →
      (Http.complaintsWith read body =
        told.map (fun complaint => { node := complaint.node, message := complaint.text }) ↔
        ∀ message ∈ messages, 0 ≤ message.1)) ∧
    ∀ body, Http.listedTexts? body = some (told.map Complaint.text) →
      (Http.complaints body =
        told.map (fun complaint => { node := complaint.node, message := complaint.text }) ↔
        ∀ message ∈ messages, 0 ≤ message.1) := by
  intro told
  have hlisted : ∀ (read : String → Option Json) (body : String),
      Http.listedTextsWith? read body = some (told.map Complaint.text) →
      (Http.complaintsWith read body =
        told.map (fun complaint => { node := complaint.node, message := complaint.text }) ↔
        ∀ message ∈ messages, 0 ≤ message.1) := by
    intro read body hbody
    rw [Http.complaintsWith_eq_map_iff hbody, List.forall_mem_map]
    exact forall₂_congr fun message hmem =>
      Mention.subject_text_eq_iff (hrange message hmem) message.2
  refine ⟨fun message hmem => ⟨Mention.subject_text_eq_iff (hrange message hmem) message.2,
    fun hneg => ?_⟩, hlisted, hlisted Json.ofText?⟩
  · rw [Mention.subject_text]
    have habs : (message.1.natAbs : Int) = -message.1 :=
      Int.ofNat_natAbs_of_nonpos (Int.le_of_lt hneg)
    rw [habs]
    by_cases hleast : message.1 = -9223372036854775808
    · rw [if_pos hleast, if_neg (by omega)]
    · have hlow := (hrange message hmem).1
      rw [if_neg hleast, if_pos (by omega)]

/-- Two messages that mention other nodes themselves, about the first and the last node that are
read back. -/
theorem Mention.subject_text_of_own_mentions :
    let messages : List (Int × String) :=
      [(0, "routes to node 3, see Node #4"), (9223372036854775807, "Node 7: no command")]
    let told := messages.map fun message =>
      ({ node := some message.1, message := message.2 } : Complaint)
    let body := "\x7b\"errors\": [\"Node 0: routes to node 3, see Node #4\", " ++
      "\"Node 9223372036854775807: Node 7: no command\"]\x7d"
    (∀ message ∈ messages, Text.InRange64 message.1) ∧
      Http.listedTexts? body = some (told.map Complaint.text) ∧
      (∀ message ∈ messages, Mention.subject
        (Complaint.text { node := some message.1, message := message.2 }).toList =
          some message.1) ∧
      Http.complaints body =
        told.map (fun complaint => { node := complaint.node, message := complaint.text }) := by
  intro messages told body
  have hrange : ∀ message ∈ messages, Text.InRange64 message.1 :=
    List.forall_mem_cons.2 ⟨by decide, List.forall_mem_singleton.2 (by decide)⟩
  have hnonneg : ∀ message ∈ messages, 0 ≤ message.1 :=
    List.forall_mem_cons.2 ⟨by decide, List.forall_mem_singleton.2 (by decide)⟩
  have hbody : Http.listedTexts? body = some (told.map Complaint.text) := by decide +kernel
  obtain ⟨heach, -, hall⟩ := subject_text_iff messages hrange
  exact ⟨hrange, hbody, fun message hmem => (heach message hmem).1.2 (hnonneg message hmem),
    (hall body hbody).2 hnonneg⟩

/-- A message about a node of the runtime is taken for one about another node. -/
theorem Mention.subject_text_below_zero :
    let complaint : Complaint := { node := some (-5), message := "no command" }
    Mention.subject complaint.text.toList = some 5 ∧
      Http.complaints "\x7b\"errors\": [\"Node -5: no command\"]\x7d" =
        [{ node := some 5, message := complaint.text }] := by
  decide +kernel

end DialogTable.Compiler
