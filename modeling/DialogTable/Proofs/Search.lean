import DialogTable.Search

/-!
# The point that halving finds

Where the items that satisfy a condition stand in front of all others (`Partitioned`), an item
satisfies it exactly if it stands before their number (`Partitioned.lt_countP_iff`). Halving finds
this number, which lies between its two positions at any time (`Partitioned.partitionPoint_eq`).
-/

namespace DialogTable

variable {α : Type}

/-- The items that satisfy a condition stand in front of all others. -/
def Partitioned (p : α → Bool) (items : List α) : Prop :=
  items.Pairwise fun a b => p b = true → p a = true

namespace Partitioned

variable {p : α → Bool} {items : List α}

/-- Behind an item that does not satisfy the condition there is none that does. -/
theorem countP_eq_zero {head : α} (h : Partitioned p (head :: items)) (hp : ¬ p head = true) :
    (head :: items).countP p = 0 := by
  rw [List.countP_eq_zero]
  intro item hitem
  rcases List.mem_cons.1 hitem with rfl | hitem
  · exact hp
  · exact fun hpi => hp (List.rel_of_pairwise_cons h hitem hpi)

theorem lt_countP_iff (h : Partitioned p items) {position : Nat} {item : α}
    (hi : items[position]? = some item) : position < items.countP p ↔ p item = true := by
  induction items generalizing position with
  | nil => cases hi
  | cons head rest ih =>
    by_cases hhead : p head = true
    · rw [List.countP_cons_of_pos hhead]
      cases position with
      | zero =>
        rw [List.getElem?_cons_zero, Option.some.injEq] at hi
        exact ⟨fun _ => hi ▸ hhead, fun _ => Nat.succ_pos _⟩
      | succ position =>
        rw [List.getElem?_cons_succ] at hi
        exact Nat.succ_lt_succ_iff.trans (ih h.of_cons hi)
    · have hzero := h.countP_eq_zero hhead
      have hitem := List.countP_eq_zero.1 hzero item (List.mem_of_getElem? hi)
      rw [hzero]
      exact ⟨fun hlt => absurd hlt (Nat.not_lt_zero _), fun hpi => absurd hpi hitem⟩

theorem partitionPointWithin_eq (h : Partitioned p items) {low high : Nat}
    (hlow : low ≤ items.countP p) (hhigh : items.countP p ≤ high) (hlen : high ≤ items.length) :
    partitionPointWithin p items low high = items.countP p := by
  fun_induction partitionPointWithin p items low high with
  | case1 low high hlt middle hp ih =>
    have hmiddle : items[middle]? = some items[middle] := List.getElem?_eq_getElem (by omega)
    rw [hmiddle, Option.any_some] at hp
    exact ih ((h.lt_countP_iff hmiddle).2 hp) hhigh hlen
  | case2 low high hlt middle hp ih =>
    have hmiddle : items[middle]? = some items[middle] := List.getElem?_eq_getElem (by omega)
    rw [hmiddle, Option.any_some, ← h.lt_countP_iff hmiddle] at hp
    exact ih hlow (Nat.not_lt.1 hp) (by omega)
  | case3 low high hlt => omega

/-- Halving finds the number of the items that satisfy the condition. -/
theorem partitionPoint_eq (h : Partitioned p items) : partitionPoint p items = items.countP p :=
  h.partitionPointWithin_eq (Nat.zero_le _) List.countP_le_length (Nat.le_refl _)

end Partitioned

end DialogTable
