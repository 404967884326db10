import Mathlib.Algebra.Ring.Nat
import DialogTable.Validation.Policy

/-!
# The target of stray references

There is a target unless the node is alone with its number, and it is a known number other than the
node's own: the preferred one if it may be taken, else the nearest, and of two at the same distance
the lower one. The main statement `Policy.target?_determined` says so; the target depends on which
numbers are known and not on their order.

Distances are computed in words of 64 bits. Where a distance is less than `2 ^ 63` it is the true
one (`toInt_distance`). A difference of `-2 ^ 63` fits into such a word, but its absolute value does
not.
-/

namespace DialogTable.Validation

/-- A distance that fits into a word is computed as it is. -/
theorem toInt_distance {near n : Int} (h : (n - near).natAbs < 2 ^ 63) :
    (distance near n).toInt = (n - near).natAbs := by
  have hdifference : (Int64.ofInt n - Int64.ofInt near).toInt = n - near := by
    rw [← Int64.ofInt_sub]
    exact Int64.toInt_ofInt_of_le (by omega) (by omega)
  have hleast : (Int64.ofInt n - Int64.ofInt near).toBitVec ≠ BitVec.intMin 64 := by
    intro heq
    have htoInt : n - near = (BitVec.intMin 64).toInt := by
      rw [← hdifference, ← heq]
      rfl
    rw [show (BitVec.intMin 64).toInt = -2 ^ 63 from rfl] at htoInt
    omega
  show (Int64.ofInt n - Int64.ofInt near).toBitVec.abs.toInt = _
  rw [BitVec.toInt_abs_eq_natAbs_of_ne_intMin hleast]
  exact congrArg (fun difference : Int => (difference.natAbs : Int)) hdifference

theorem nearer_eq_or (near a b : Int) : nearer near a b = a ∨ nearer near a b = b := by
  rw [nearer]
  split
  · exact .inl rfl
  · exact .inr rfl

theorem nearest?_eq_none_iff {near : Int} {numbers : List Int} :
    nearest? near numbers = none ↔ numbers = [] := by
  cases numbers with
  | nil => exact ⟨fun _ => rfl, fun _ => rfl⟩
  | cons n rest =>
    rw [nearest?]
    split <;> simp

theorem mem_of_nearest? {near n : Int} {numbers : List Int} (h : nearest? near numbers = some n) :
    n ∈ numbers := by
  induction numbers generalizing n with
  | nil => cases h
  | cons m rest ih =>
    rw [nearest?] at h
    split at h
    · rw [← Option.some.inj h]
      exact List.mem_cons_self
    · next other hother =>
      rw [← Option.some.inj h]
      rcases nearer_eq_or near m other with heq | heq
      · rw [heq]
        exact List.mem_cons_self
      · rw [heq]
        exact List.mem_cons_of_mem m (ih hother)

/-- Of two numbers the first is nearer, or as near and not higher. -/
def AsNear (near a b : Int) : Prop :=
  distance near a < distance near b ∨ distance near a = distance near b ∧ a ≤ b

theorem asNear_iff_toInt {near a b : Int} :
    AsNear near a b ↔ (distance near a).toInt < (distance near b).toInt ∨
      (distance near a).toInt = (distance near b).toInt ∧ a ≤ b := by
  rw [AsNear, Int64.lt_iff_toInt_lt, Int64.toInt_inj]

theorem AsNear.refl (near a : Int) : AsNear near a a :=
  .inr ⟨rfl, Int.le_refl a⟩

theorem AsNear.trans {near a b c : Int} (h : AsNear near a b) (hbc : AsNear near b c) :
    AsNear near a c := by
  rw [asNear_iff_toInt] at *
  omega

/-- A tie goes to the lower number, so that two numbers as near as each other are the same. -/
theorem AsNear.antisymm {near a b : Int} (h : AsNear near a b) (hba : AsNear near b a) : a = b := by
  rw [asNear_iff_toInt] at *
  omega

theorem asNear_nearer (near a b : Int) :
    AsNear near (nearer near a b) a ∧ AsNear near (nearer near a b) b := by
  have htotal : ∀ c, AsNear near a c ∨ AsNear near c a := by
    intro c
    rw [asNear_iff_toInt, asNear_iff_toInt]
    omega
  rw [nearer]
  split
  · next h => exact ⟨.refl near a, h⟩
  · next h => exact ⟨(htotal b).resolve_left h, .refl near b⟩

theorem asNear_of_nearest? {near n : Int} {numbers : List Int}
    (h : nearest? near numbers = some n) : ∀ m ∈ numbers, AsNear near n m := by
  induction numbers generalizing n with
  | nil => exact nofun
  | cons first rest ih =>
    rw [nearest?] at h
    split at h
    · next hnone =>
      obtain rfl := nearest?_eq_none_iff.1 hnone
      obtain rfl := Option.some.inj h
      exact List.forall_mem_singleton.2 (.refl near first)
    · next other hother =>
      obtain rfl := Option.some.inj h
      obtain ⟨hfirst, hrest⟩ := asNear_nearer near first other
      exact List.forall_mem_cons.2 ⟨hfirst, fun m hm => hrest.trans (ih hother m hm)⟩

/-- The nearest number is the one that is as near as all. -/
theorem nearest?_eq_some_iff {near n : Int} {numbers : List Int} :
    nearest? near numbers = some n ↔ n ∈ numbers ∧ ∀ m ∈ numbers, AsNear near n m := by
  constructor
  · exact fun h => ⟨mem_of_nearest? h, asNear_of_nearest? h⟩
  · rintro ⟨hmem, hnear⟩
    cases hfound : nearest? near numbers with
    | none => exact absurd (nearest?_eq_none_iff.1 hfound ▸ hmem) List.not_mem_nil
    | some found =>
      have hsame : found = n :=
        (asNear_of_nearest? hfound n hmem).antisymm (hnear found (mem_of_nearest? hfound))
      rw [hsame]

/-- No other number than the given one is known. -/
def Alone (known : List Int) (number : Int) : Prop :=
  ∀ n ∈ known, n = number

namespace Policy

theorem filter_ne_eq_nil_iff {known : List Int} {source : Int} :
    known.filter (· ≠ source) = [] ↔ Alone known source := by
  simp [Alone]

theorem target?_eq_none_iff {policy : Policy} {known : List Int} {source near : Int} :
    policy.target? known source near = none ↔ Alone known source := by
  rw [← filter_ne_eq_nil_iff, target?]
  split
  · split
    · next h => exact ⟨nofun, fun hnil => absurd (hnil ▸ h) List.not_mem_nil⟩
    · exact nearest?_eq_none_iff
  · exact nearest?_eq_none_iff

theorem exists_target? (policy : Policy) {known : List Int} {source : Int}
    (h : ¬ Alone known source) (near : Int) :
    ∃ target, policy.target? known source near = some target :=
  Option.ne_none_iff_exists'.1 fun hnone => h (target?_eq_none_iff.1 hnone)

/-- References are led to known numbers. -/
theorem mem_of_target? {policy : Policy} {known : List Int} {source near target : Int}
    (h : policy.target? known source near = some target) : target ∈ known := by
  have hmem : target ∈ known.filter (· ≠ source) := by
    rw [target?] at h
    split at h
    · split at h
      · next hfallback =>
        rw [← Option.some.inj h]
        exact hfallback
      · exact mem_of_nearest? h
    · exact mem_of_nearest? h
  exact (List.mem_filter.1 hmem).1

theorem mem_others_iff {known : List Int} {source n : Int} :
    n ∈ known.filter (· ≠ source) ↔ n ∈ known ∧ n ≠ source := by
  rw [List.mem_filter, decide_eq_true_eq]

/-- The preferred target is taken if it is another known number, and the nearest one else. -/
theorem target?_eq_some_iff {policy : Policy} {known : List Int} {source near target : Int} :
    policy.target? known source near = some target ↔
      target ∈ known ∧ target ≠ source ∧
        (policy.fallback = some target ∨
          (∀ preferred, policy.fallback = some preferred → preferred ∈ known → preferred = source) ∧
            ∀ n ∈ known, n ≠ source → AsNear near target n) := by
  have hnearest : nearest? near (known.filter (· ≠ source)) = some target ↔
      target ∈ known ∧ target ≠ source ∧ ∀ n ∈ known, n ≠ source → AsNear near target n := by
    simp only [nearest?_eq_some_iff, mem_others_iff, and_assoc, and_imp]
  rw [target?]
  cases hpreferred : policy.fallback with
  | none =>
    simp only [hnearest, reduceCtorEq, false_or, false_implies, implies_true, true_and]
  | some preferred =>
    simp only [mem_others_iff, Option.some.injEq, forall_eq']
    split
    · next h =>
      -- The preferred number may be taken, so that no nearest one is looked for.
      constructor
      · rintro heq
        obtain rfl := Option.some.inj heq
        exact ⟨h.1, h.2, .inl rfl⟩
      · rintro ⟨-, -, rfl | ⟨hown, -⟩⟩
        · rfl
        · exact absurd (hown h.1) h.2
    · next h =>
      rw [hnearest]
      constructor
      · rintro ⟨hknown, hother, hnear⟩
        have hown : preferred ∈ known → preferred = source :=
          fun hmem => Decidable.byContradiction fun hne => h ⟨hmem, hne⟩
        exact ⟨hknown, hother, .inr ⟨hown, hnear⟩⟩
      · rintro ⟨hknown, hother, rfl | ⟨-, hnear⟩⟩
        · exact absurd ⟨hknown, hother⟩ h
        · exact ⟨hknown, hother, hnear⟩

/-- The order of the known numbers and their repetitions do not matter. -/
theorem target?_congr {policy : Policy} {known others : List Int}
    (h : ∀ n, n ∈ others ↔ n ∈ known) (source near : Int) :
    policy.target? others source near = policy.target? known source near := by
  apply Option.ext
  intro target
  simp only [target?_eq_some_iff, h]

theorem asNear_iff_natAbs {near a b : Int} (ha : (a - near).natAbs < 2 ^ 63)
    (hb : (b - near).natAbs < 2 ^ 63) :
    AsNear near a b ↔ (a - near).natAbs < (b - near).natAbs ∨
      (a - near).natAbs = (b - near).natAbs ∧ a ≤ b := by
  rw [asNear_iff_toInt, toInt_distance ha, toInt_distance hb, Int.ofNat_lt, Int.ofNat_inj]

/-- **The target is determined.** It depends on which numbers are known and not on their order.
There is none exactly if no number but the node's own is known. It is the preferred number if that
is known and not the node's own, else the nearest known number that is not, the lower one in a tie,
as long as all distances fit into a word. -/
theorem target?_determined (policy : Policy) (known : List Int) (source near : Int) :
    (∀ others : List Int, (∀ n, n ∈ others ↔ n ∈ known) →
      policy.target? others source near = policy.target? known source near) ∧
    (policy.target? known source near = none ↔ ∀ n ∈ known, n = source) ∧
    (∀ preferred, policy.fallback = some preferred → preferred ∈ known → preferred ≠ source →
      policy.target? known source near = some preferred) ∧
    ((∀ preferred, policy.fallback = some preferred → preferred ∈ known → preferred = source) →
      (∀ n ∈ known, n ≠ source → (n - near).natAbs < 2 ^ 63) →
      ∀ target, policy.target? known source near = some target ↔
        target ∈ known ∧ target ≠ source ∧
          ∀ n ∈ known, n ≠ source →
            (target - near).natAbs < (n - near).natAbs ∨
              (target - near).natAbs = (n - near).natAbs ∧ target ≤ n) := by
  refine ⟨fun others h => target?_congr h source near, target?_eq_none_iff,
    fun preferred hpreferred hknown hother =>
      target?_eq_some_iff.2 ⟨hknown, hother, .inl hpreferred⟩,
    fun hown hfits target => ?_⟩
  rw [target?_eq_some_iff]
  constructor
  · rintro ⟨hknown, hother, hpreferred | ⟨-, hnear⟩⟩
    · exact absurd (hown target hpreferred hknown) hother
    · exact ⟨hknown, hother, fun n hn hne =>
        (asNear_iff_natAbs (hfits target hknown hother) (hfits n hn hne)).1 (hnear n hn hne)⟩
  · rintro ⟨hknown, hother, hnear⟩
    exact ⟨hknown, hother, .inr ⟨hown, fun n hn hne =>
      (asNear_iff_natAbs (hfits target hknown hother) (hfits n hn hne)).2 (hnear n hn hne)⟩⟩

/-- A tie of two numbers, in two orders and with a repetition. The preferred number is missing, is
the node's own, or is taken. -/
theorem target?_determined_of_tie :
    let known : List Int := [600, 10, 1, 400]
    let others : List Int := [1, 400, 10, 400, 600]
    let preferring (number : Int) : Policy := { fallback := some number }
    (∀ n, n ∈ others ↔ n ∈ known) ∧
      (preferring 99990).target? others 10 500 = (preferring 99990).target? known 10 500 ∧
      (preferring 99990).target? known 10 500 = some 400 ∧
      (preferring 10).target? known 10 500 = some 400 ∧
      (preferring 600).target? known 10 500 = some 600 := by
  intro known others preferring
  have hsame : ∀ n, n ∈ others ↔ n ∈ known := by
    intro n
    simp only [known, others, List.mem_cons, List.not_mem_nil, or_false]
    omega
  have hnear : ∀ n ∈ known, n ≠ 10 → ((400 : Int) - 500).natAbs < (n - 500).natAbs ∨
      ((400 : Int) - 500).natAbs = (n - 500).natAbs ∧ 400 ≤ n := by
    decide
  have hfits : ∀ n ∈ known, n ≠ 10 → (n - 500).natAbs < 2 ^ 63 := by
    decide
  have hunknown (preferred : Int) (heq : some 99990 = some preferred) (hmem : preferred ∈ known) :
      preferred = 10 := by
    obtain rfl := Option.some.inj heq
    exact absurd hmem (by decide)
  have hown (preferred : Int) (heq : some 10 = some preferred) (_ : preferred ∈ known) :
      preferred = 10 :=
    (Option.some.inj heq).symm
  obtain ⟨horder, -, -, hmissing⟩ := target?_determined (preferring 99990) known 10 500
  obtain ⟨-, -, -, halone⟩ := target?_determined (preferring 10) known 10 500
  obtain ⟨-, -, htaken, -⟩ := target?_determined (preferring 600) known 10 500
  exact ⟨hsame, horder others hsame, (hmissing hunknown hfits 400).2 ⟨by decide, by decide, hnear⟩,
    (halone hown hfits 400).2 ⟨by decide, by decide, hnear⟩,
    htaken 600 rfl (by decide) (by decide)⟩

/-- A difference of `-2 ^ 63` has no absolute value in a word, and its number is taken for the
nearest. -/
example : ({ fallback := none } : Policy).target? [-9223372036854775808, 5] 7 0 =
    some (-9223372036854775808) := by
  decide

end Policy

end DialogTable.Validation
