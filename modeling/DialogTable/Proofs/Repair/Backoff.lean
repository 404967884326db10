import Mathlib.Algebra.Ring.Nat
import DialogTable.Repair.Limits

/-!
# The wait after failures in a row

The wait is computed in words: the doublings are cut off, and the product stops at the greatest
word. Neither is seen, as wherever one of them takes effect the wait is past the longest or the
first wait is zero (`min_mul_two_pow_min`). So the wait is the one that is computed without bounds
(`Limits.backoff_eq`), and it grows with the failures and with the first wait. The main statement is
`Limits.backoff_exact`.
-/

namespace DialogTable

/-! ### Whole seconds -/

namespace Duration

theorem ofSeconds_le_ofSeconds {m n : Nat} : ofSeconds m ≤ ofSeconds n ↔ m ≤ n :=
  Nat.mul_le_mul_right_iff (by decide)

theorem min_ofSeconds (m n : Nat) : min (ofSeconds m) (ofSeconds n) = ofSeconds (min m n) := by
  by_cases hle : m ≤ n
  · rw [Nat.min_eq_left hle]
    exact if_pos (ofSeconds_le_ofSeconds.2 hle)
  · rw [Nat.min_eq_right (Nat.le_of_not_le hle)]
    exact if_neg (mt ofSeconds_le_ofSeconds.1 hle)

end Duration

namespace Repair.Limits

/-! ### Doublings -/

theorem toNat_doublings (failures : UInt32) :
    (doublings failures).toNat = min (failures.toNat - 1) 16 := by
  rw [doublings, Word.toNat_min, Word.toNat_saturatingSub]
  rfl

/-- The shift stays within a word. -/
theorem doublings_lt (failures : UInt32) : (doublings failures).toNat < 64 := by
  rw [toNat_doublings]
  omega

theorem toNat_one_shiftLeft_doublings (failures : UInt32) :
    ((1 : UInt64) <<< (doublings failures).toUInt64).toNat = 2 ^ min (failures.toNat - 1) 16 := by
  have hlt : 2 ^ (doublings failures).toNat < 2 ^ 64 :=
    Nat.pow_lt_pow_right (by decide) (doublings_lt failures)
  rw [UInt64.toNat_shiftLeft, UInt32.toNat_toUInt64, Nat.mod_eq_of_lt (doublings_lt failures),
    UInt64.toNat_one, Nat.one_shiftLeft, Nat.mod_eq_of_lt hlt, toNat_doublings]

theorem toNat_doubledSeconds (first : UInt64) (failures : UInt32) :
    (doubledSeconds first failures).toNat =
      min Word.greatest.toNat (first.toNat * 2 ^ min (failures.toNat - 1) 16) := by
  rw [doubledSeconds, Word.toNat_saturatingMul, toNat_one_shiftLeft_doublings]

/-! ### Doublings under a cap -/

/-- Doublings that come after any positive number is past a cap change nothing below it. -/
theorem min_mul_two_pow_min {cap most : Nat} (h : cap ≤ 2 ^ most) (first n : Nat) :
    min cap (first * 2 ^ min n most) = min cap (first * 2 ^ n) := by
  rcases Nat.le_total n most with hn | hn
  · rw [Nat.min_eq_left hn]
  · rw [Nat.min_eq_right hn]
    rcases Nat.eq_zero_or_pos first with rfl | hpos
    · rw [Nat.zero_mul, Nat.zero_mul]
    · have hmost : cap ≤ first * 2 ^ most := Nat.le_trans h (Nat.le_mul_of_pos_left _ hpos)
      have hmore : first * 2 ^ most ≤ first * 2 ^ n :=
        Nat.mul_le_mul_left first (Nat.pow_le_pow_right (by decide) hn)
      rw [Nat.min_eq_left hmost, Nat.min_eq_left (Nat.le_trans hmost hmore)]

theorem min_mul_two_pow_mono (cap : Nat) {first higher failures more : Nat}
    (hfirst : first ≤ higher) (hfailures : failures ≤ more) :
    min cap (first * 2 ^ (failures - 1)) ≤ min cap (higher * 2 ^ (more - 1)) := by
  have hpow : 2 ^ (failures - 1) ≤ 2 ^ (more - 1) :=
    Nat.pow_le_pow_right (by decide) (Nat.sub_le_sub_right hfailures 1)
  have hmul : first * 2 ^ (failures - 1) ≤ higher * 2 ^ (more - 1) := Nat.mul_le_mul hfirst hpow
  exact Nat.le_min.2 ⟨Nat.min_le_left .., Nat.le_trans (Nat.min_le_right ..) hmul⟩

/-! ### The wait -/

/-- The wait is the one that is computed without bounds. -/
theorem backoff_eq {limits : Limits} {failures : Nat}
    (hfirst : limits.transientBackoffSeconds < UInt64.size) (hfailures : failures < UInt32.size) :
    limits.backoff failures =
      .ofSeconds (min 60 (limits.transientBackoffSeconds * 2 ^ (failures - 1))) := by
  have hgreatest : min 60 Word.greatest.toNat = 60 := by decide
  rw [backoff, longestBackoff, Duration.min_ofSeconds, toNat_doubledSeconds,
    UInt64.toNat_ofNat_of_lt' hfirst, UInt32.toNat_ofNat_of_lt' hfailures, Nat.min_comm,
    ← Nat.min_assoc, hgreatest, min_mul_two_pow_min (by decide)]

/-- **The backoff is exact doubling with a cap.** No shift leaves the word, and the wait after some
failures in a row is the first wait doubled once for every further failure, up to a minute, as if
it were computed without bounds. So it is never longer than a minute, and neither more failures nor
a longer first wait make it shorter. -/
theorem backoff_exact {limits : Limits} {failures : Nat}
    (hfirst : limits.transientBackoffSeconds < UInt64.size) (hfailures : failures < UInt32.size) :
    (doublings (.ofNat failures)).toNat < 64 ∧
      limits.backoff failures =
        .ofSeconds (min 60 (limits.transientBackoffSeconds * 2 ^ (failures - 1))) ∧
      limits.backoff failures ≤ .ofSeconds 60 ∧
      ∀ (other : Limits) (more : Nat), other.transientBackoffSeconds < UInt64.size →
        more < UInt32.size → limits.transientBackoffSeconds ≤ other.transientBackoffSeconds →
        failures ≤ more → limits.backoff failures ≤ other.backoff more := by
  have heq := backoff_eq hfirst hfailures
  refine ⟨doublings_lt _, heq, ?_, fun other more hother hmore hlonger hle => ?_⟩
  · rw [heq]
    exact Duration.ofSeconds_le_ofSeconds.2 (Nat.min_le_left ..)
  · rw [heq, backoff_eq hother hmore]
    exact Duration.ofSeconds_le_ofSeconds.2 (min_mul_two_pow_mono 60 hlonger hle)

/-- A wait of three seconds that is doubled three times, and the greatest first wait after so many
failures that the doublings are cut off and the product stops. -/
theorem backoff_exact_of_greatest :
    let limits : Limits := { transientBackoffSeconds := 3 }
    let other : Limits := { transientBackoffSeconds := 18446744073709551615 }
    limits.transientBackoffSeconds < UInt64.size ∧ 4 < UInt32.size ∧
      other.transientBackoffSeconds < UInt64.size ∧ 40 < UInt32.size ∧
      limits.transientBackoffSeconds ≤ other.transientBackoffSeconds ∧ 4 ≤ 40 ∧
      limits.backoff 4 = .ofSeconds 24 ∧ other.backoff 40 = .ofSeconds 60 ∧
      limits.backoff 4 ≤ other.backoff 40 := by
  intro limits other
  have hfirst : limits.transientBackoffSeconds < UInt64.size := by decide
  have hother : other.transientBackoffSeconds < UInt64.size := by decide
  have hlonger : limits.transientBackoffSeconds ≤ other.transientBackoffSeconds := by decide
  obtain ⟨-, heq, -, hmono⟩ := @backoff_exact limits 4 hfirst (by decide)
  obtain ⟨-, hotherEq, -, -⟩ := @backoff_exact other 40 hother (by decide)
  exact ⟨hfirst, by decide, hother, by decide, hlonger, by decide, heq, hotherEq,
    hmono other 40 hother (by decide) hlonger (by decide)⟩

end Repair.Limits

end DialogTable
