import DialogTable.Text.Numeral
import DialogTable.Proofs.Text.Parts

/-!
# Reading back written integers

An integer in the range of 64 bits is read from its decimal text. The text holds digits and at most
one minus sign, so that no separator, quote or blank can stand in it.
-/

namespace DialogTable.Text

/-- The characters of a written integer. -/
def IsNumeral (c : Char) : Prop :=
  isDigit c = true ∨ c = '-'

instance (c : Char) : Decidable (IsNumeral c) :=
  inferInstanceAs (Decidable (_ ∨ _))

theorem digitsValue_eq (digits : List Char) : digitsValue digits = Nat.ofDigitChars 10 digits 0 :=
  rfl

theorem isDigit_of_mem_toDigits {c : Char} {n : Nat} (h : c ∈ Nat.toDigits 10 n) :
    isDigit c = true :=
  Nat.isDigit_of_mem_toDigits (by decide) (by decide) h

theorem readDigits_toDigits (n : Nat) : readDigits (Nat.toDigits 10 n) = some n := by
  have hall : (Nat.toDigits 10 n).all isDigit = true :=
    List.all_eq_true.2 fun c hc => isDigit_of_mem_toDigits hc
  rw [readDigits, if_pos ⟨Nat.toDigits_ne_nil, hall⟩, digitsValue_eq, Nat.ofDigitChars_ten_toDigits]

theorem toList_toString (n : Int) :
    (toString n).toList =
      if 0 ≤ n then Nat.toDigits 10 n.toNat else '-' :: Nat.toDigits 10 (-n).toNat := by
  rw [Int.toString_eq_repr, Int.repr_eq_if]
  split
  · exact Nat.toList_repr
  · rw [String.toList_append, Nat.toList_repr]
    rfl

theorem isNumeral_of_mem_toString {n : Int} {c : Char} (h : c ∈ (toString n).toList) :
    IsNumeral c := by
  rw [toList_toString] at h
  split at h
  · exact .inl (isDigit_of_mem_toDigits h)
  · rcases List.mem_cons.1 h with rfl | h
    · exact .inr rfl
    · exact .inl (isDigit_of_mem_toDigits h)

theorem toString_ne_nil (n : Int) : (toString n).toList ≠ [] := by
  rw [toList_toString]
  split
  · exact Nat.toDigits_ne_nil
  · exact List.cons_ne_nil _ _

theorem readInteger_of_isDigit {c : Char} {rest : List Char} (h : isDigit c = true) :
    readInteger (c :: rest) = (readDigits (c :: rest)).map Int.ofNat := by
  unfold readInteger
  split
  · next hc => simp_all [isDigit]
  · next hc => simp_all [isDigit]
  · rfl

/-- A run of digits without a sign is read as a node number if 64 bits are enough. -/
theorem readNumber_eq_some_iff {digits : List Char} (h : ∀ c ∈ digits, isDigit c = true) {n : Int} :
    readNumber digits = some n ↔
      digits ≠ [] ∧ n = Nat.ofDigitChars 10 digits 0 ∧ n < 9223372036854775808 := by
  cases digits with
  | nil => exact ⟨nofun, fun hne => absurd rfl hne.1⟩
  | cons c rest =>
    have hread : readDigits (c :: rest) = some (Nat.ofDigitChars 10 (c :: rest) 0) := by
      rw [readDigits, if_pos ⟨List.cons_ne_nil c rest, List.all_eq_true.2 h⟩, digitsValue_eq]
    rw [readNumber, readInteger_of_isDigit (h c List.mem_cons_self), hread, Option.map_some,
      Option.filter_eq_some_iff, decide_eq_true_eq, Option.some_inj, InRange64, Int.ofNat_eq_natCast]
    constructor
    · rintro ⟨rfl, -, hlt⟩
      exact ⟨List.cons_ne_nil c rest, rfl, hlt⟩
    · rintro ⟨-, rfl, hlt⟩
      exact ⟨rfl, by omega, hlt⟩

theorem readInteger_toString (n : Int) : readInteger (toString n).toList = some n := by
  rw [toList_toString]
  split
  · next hn =>
    have hne : Nat.toDigits 10 n.toNat ≠ [] := Nat.toDigits_ne_nil
    obtain ⟨c, rest, hcons⟩ := List.exists_cons_of_ne_nil hne
    have hmem : c ∈ Nat.toDigits 10 n.toNat := by rw [hcons]; exact List.mem_cons_self
    have hc : isDigit c = true := isDigit_of_mem_toDigits hmem
    rw [hcons, readInteger_of_isDigit hc, ← hcons, readDigits_toDigits, Option.map_some]
    exact congrArg some (Int.toNat_of_nonneg hn)
  · next hn =>
    rw [readInteger, readDigits_toDigits]
    exact congrArg some (by omega : -((-n).toNat : Int) = n)

/-- A written integer is read back. -/
theorem readNumber_toString {n : Int} (h : InRange64 n) :
    readNumber (toString n).toList = some n := by
  rw [readNumber, readInteger_toString, Option.filter_some, if_pos (decide_eq_true h)]

/-! ### The shortest text of an integer -/

theorem toNat_le_of_isDigit {c : Char} (h : isDigit c = true) : c.toNat ≤ 57 := by
  simp only [isDigit, Bool.and_eq_true, decide_eq_true_eq, Char.le_def, UInt32.le_iff_toNat_le] at h
  exact h.2

theorem ofDigitChars_lt {digits : List Char} (h : ∀ c ∈ digits, isDigit c = true) (n : Nat) :
    Nat.ofDigitChars 10 digits n < (n + 1) * 10 ^ digits.length := by
  induction digits generalizing n with
  | nil => simp
  | cons c digits ih =>
    have hc : c.toNat ≤ 57 := toNat_le_of_isDigit (h c List.mem_cons_self)
    have hzero : ('0' : Char).toNat = 48 := rfl
    rw [Nat.ofDigitChars_cons]
    calc Nat.ofDigitChars 10 digits (10 * n + (c.toNat - '0'.toNat))
        < (10 * n + (c.toNat - '0'.toNat) + 1) * 10 ^ digits.length :=
          ih (fun d hd => h d (List.mem_cons_of_mem c hd)) _
      _ ≤ (10 * (n + 1)) * 10 ^ digits.length := Nat.mul_le_mul_right _ (by omega)
      _ = (n + 1) * 10 ^ (c :: digits).length := by rw [List.length_cons, Nat.pow_succ]; ac_rfl

theorem length_toDigits_le {digits : List Char} {n : Nat} (h : readDigits digits = some n) :
    (Nat.toDigits 10 n).length ≤ digits.length := by
  rw [readDigits] at h
  split at h
  · next hdigits =>
    rw [Nat.length_toDigits_le_iff (by decide) (List.length_pos_iff.2 hdigits.1),
      ← Option.some.inj h, digitsValue_eq]
    simpa using ofDigitChars_lt (List.all_eq_true.1 hdigits.2) 0
  · cases h

theorem length_toString_neg_le (n : Nat) :
    (toString (-(n : Int))).toList.length ≤ (Nat.toDigits 10 n).length + 1 := by
  rw [toList_toString]
  split
  · next hn =>
    obtain rfl : n = 0 := by omega
    decide
  · rw [Int.neg_neg, Int.toNat_natCast, List.length_cons]

theorem length_toString_natCast (n : Nat) :
    (toString (n : Int)).toList.length = (Nat.toDigits 10 n).length := by
  rw [toList_toString, if_pos (Int.natCast_nonneg n), Int.toNat_natCast]

/-- What is read as an integer is a run of digits, with at most a sign in front. -/
theorem exists_of_readInteger {text : List Char} {n : Int} (h : readInteger text = some n) :
    ∃ digits m, readDigits digits = some m ∧
      (text = '-' :: digits ∧ n = -(m : Int) ∨ text = '+' :: digits ∧ n = m ∨
        text = digits ∧ n = m) := by
  unfold readInteger at h
  split at h
  · next digits =>
    cases hread : readDigits digits with
    | none =>
      rw [hread] at h
      cases h
    | some m =>
      rw [hread] at h
      exact ⟨digits, m, hread, .inl ⟨rfl, (Option.some.inj h).symm⟩⟩
  · next digits =>
    obtain ⟨m, hm, rfl⟩ := Option.map_eq_some_iff.1 h
    exact ⟨digits, m, hm, .inr (.inl ⟨rfl, rfl⟩)⟩
  · obtain ⟨m, hm, rfl⟩ := Option.map_eq_some_iff.1 h
    exact ⟨text, m, hm, .inr (.inr ⟨rfl, rfl⟩)⟩

/-- No text of an integer is shorter than the written one. -/
theorem length_toString_le {text : List Char} {n : Int} (h : readNumber text = some n) :
    (toString n).toList.length ≤ text.length := by
  obtain ⟨digits, m, hm, hsign⟩ := exists_of_readInteger (Option.filter_eq_some_iff.1 h).1
  have hle := length_toDigits_le hm
  rcases hsign with ⟨rfl, rfl⟩ | ⟨rfl, rfl⟩ | ⟨rfl, rfl⟩
  · have hneg := length_toString_neg_le m
    rw [List.length_cons]
    omega
  · rw [length_toString_natCast, List.length_cons]
    omega
  · rw [length_toString_natCast]
    exact hle

theorem isDigit_of_mem_of_readDigits {digits : List Char} {n : Nat}
    (h : readDigits digits = some n) {c : Char} (hc : c ∈ digits) : isDigit c = true := by
  rw [readDigits] at h
  split at h
  · next hdigits => exact List.all_eq_true.1 hdigits.2 c hc
  · cases h

/-- A text that is read as an integer holds digits and signs only. -/
theorem isDigit_or_sign_of_mem {text : List Char} {n : Int} (h : readNumber text = some n)
    {c : Char} (hc : c ∈ text) : isDigit c = true ∨ c = '-' ∨ c = '+' := by
  obtain ⟨digits, m, hm, hsign⟩ := exists_of_readInteger (Option.filter_eq_some_iff.1 h).1
  rcases hsign with ⟨rfl, -⟩ | ⟨rfl, -⟩ | ⟨rfl, -⟩
  · rcases List.mem_cons.1 hc with rfl | hc
    · exact .inr (.inl rfl)
    · exact .inl (isDigit_of_mem_of_readDigits hm hc)
  · rcases List.mem_cons.1 hc with rfl | hc
    · exact .inr (.inr rfl)
    · exact .inl (isDigit_of_mem_of_readDigits hm hc)
  · exact .inl (isDigit_of_mem_of_readDigits hm hc)

/-! ### What cannot stand in a written integer -/

theorem isBlank_of_isNumeral {c : Char} (h : IsNumeral c) : isBlank c = false := by
  have hrange : 0x21 ≤ c.toNat ∧ c.toNat ≤ 0x7E := by
    rcases h with h | rfl
    · simp only [isDigit, Bool.and_eq_true, decide_eq_true_eq, Char.le_def, UInt32.le_iff_toNat_le] at h
      have h0 : ('0' : Char).val.toNat = 48 := rfl
      have h9 : ('9' : Char).val.toNat = 57 := rfl
      have hc : c.val.toNat = c.toNat := rfl
      omega
    · decide
  simp only [isBlank, blankRanges, List.any_cons, List.any_nil]
  simp
  omega

theorem trim_toString (n : Int) : trim (toString n).toList = (toString n).toList :=
  trim_eq_self_of_not_blank fun _ hc => isBlank_of_isNumeral (isNumeral_of_mem_toString hc)

theorem readNumber_trim_toString {n : Int} (h : InRange64 n) :
    readNumber (trim (toString n).toList) = some n := by
  rw [trim_toString, readNumber_toString h]

theorem not_mem_toString {c : Char} (h : ¬ IsNumeral c) (n : Int) : c ∉ (toString n).toList :=
  fun hc => h (isNumeral_of_mem_toString hc)

end DialogTable.Text
