/-!
# Arithmetic that stops at the bounds

Differences and products of words do not wrap around where they stop at the bounds: a difference
below zero is zero, and a product beyond the greatest word is the greatest word.
-/

namespace DialogTable.Word

/-- A difference, or zero if it is negative. -/
def saturatingSub (a b : UInt32) : UInt32 :=
  if a < b then 0 else a - b

/-- The greatest word of 64 bits. -/
def greatest : UInt64 := 18446744073709551615

/-- A product, or the greatest word if it is beyond. -/
def saturatingMul (a b : UInt64) : UInt64 :=
  if b ≠ 0 ∧ greatest / b < a then greatest else a * b

/-! ### As natural numbers -/

theorem toNat_min (a b : UInt32) : (min a b).toNat = min a.toNat b.toNat := by
  rw [Std.min_eq_if, Nat.min_def, apply_ite UInt32.toNat]
  simp only [UInt32.le_iff_toNat_le]

theorem toNat_saturatingSub (a b : UInt32) : (saturatingSub a b).toNat = a.toNat - b.toNat := by
  unfold saturatingSub
  split
  · next hlt =>
    have hlt := UInt32.lt_iff_toNat_lt.1 hlt
    exact (Nat.sub_eq_zero_of_le (Nat.le_of_lt hlt)).symm
  · next hge =>
    exact UInt32.toNat_sub_of_le a b (UInt32.not_lt.1 hge)

/-- The test for a product beyond the greatest word is exact. -/
theorem greatest_div_lt_iff {a b : UInt64} (hb : b ≠ 0) :
    greatest / b < a ↔ greatest.toNat < a.toNat * b.toNat := by
  have hpos : 0 < b.toNat := Nat.pos_of_ne_zero fun hzero => hb (UInt64.toNat_inj.1 hzero)
  rw [UInt64.lt_iff_toNat_lt, UInt64.toNat_div, Nat.div_lt_iff_lt_mul hpos]

theorem toNat_saturatingMul (a b : UInt64) :
    (saturatingMul a b).toNat = min greatest.toNat (a.toNat * b.toNat) := by
  unfold saturatingMul
  split
  · next hbeyond =>
    have hlt := (greatest_div_lt_iff hbeyond.1).1 hbeyond.2
    exact (Nat.min_eq_left (Nat.le_of_lt hlt)).symm
  · next hwithin =>
    have hle : a.toNat * b.toNat ≤ greatest.toNat := by
      by_cases hb : b = 0
      · rw [hb, UInt64.toNat_zero, Nat.mul_zero]
        exact Nat.zero_le _
      · exact Nat.not_lt.1 fun hlt => hwithin ⟨hb, (greatest_div_lt_iff hb).2 hlt⟩
    rw [Nat.min_eq_right hle, UInt64.toNat_mul]
    exact Nat.mod_eq_of_lt (Nat.lt_of_le_of_lt hle (by decide))

end DialogTable.Word
