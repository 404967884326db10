import Mathlib.Data.List.Basic
import Mathlib.Data.List.Induction

/-!
# Lists without repetition

`EachOnce` says of a list that it holds the members of another one, each once and in the order of
their first occurrences; this is what `eraseDups` leaves (`eachOnce_eraseDups`). A list that is
taken apart by a key, along a list that holds each key once, is kept whole (`perm_flatMap_filter`).
-/

namespace DialogTable

variable {α : Type} [DecidableEq α]

/-- The members of a list, each once, in the order of their first occurrences. -/
structure EachOnce (once all : List α) : Prop where
  mem_iff : ∀ a, a ∈ once ↔ a ∈ all
  ordered : once.Pairwise fun a b => all.idxOf a < all.idxOf b

namespace EachOnce

variable {once all : List α} {a : α}

theorem nodup (h : EachOnce once all) : once.Nodup :=
  h.ordered.imp fun hlt heq => by
    rw [heq] at hlt
    exact Nat.lt_irrefl _ hlt

theorem nil : EachOnce ([] : List α) [] :=
  ⟨fun _ => Iff.rfl, .nil⟩

/-- What comes behind does not change where a member occurs first. -/
theorem ordered_append (h : EachOnce once all) (more : List α) :
    once.Pairwise fun b c => (all ++ more).idxOf b < (all ++ more).idxOf c := by
  refine h.ordered.imp_of_mem fun {b c} hb hc hlt => ?_
  rw [h.mem_iff] at hb hc
  rwa [List.idxOf_append, if_pos hb, List.idxOf_append, if_pos hc]

/-- A member that has occurred changes nothing. -/
theorem again (h : EachOnce once all) (ha : a ∈ all) : EachOnce once (all ++ [a]) where
  mem_iff b := by
    rw [h.mem_iff, List.mem_append, List.mem_singleton]
    constructor
    · exact .inl
    · rintro (hb | rfl)
      · exact hb
      · exact ha
  ordered := h.ordered_append [a]

/-- A new member comes behind the others. -/
theorem concat (h : EachOnce once all) (ha : a ∉ all) : EachOnce (once ++ [a]) (all ++ [a]) where
  mem_iff b := by simp [h.mem_iff]
  ordered := by
    rw [List.pairwise_append]
    refine ⟨h.ordered_append [a], List.pairwise_singleton _ a, ?_⟩
    intro b hb c hc
    rw [h.mem_iff] at hb
    have hlt := List.idxOf_lt_length_iff.2 hb
    rw [List.mem_singleton.1 hc, List.idxOf_append, if_pos hb, List.idxOf_append, if_neg ha]
    omega

end EachOnce

theorem eraseDups_concat (l : List α) (a : α) :
    (l ++ [a]).eraseDups = if a ∈ l then l.eraseDups else l.eraseDups ++ [a] := by
  have hone : ([a] : List α).eraseDups = [a] := rfl
  rw [List.eraseDups_append, List.removeAll]
  by_cases ha : a ∈ l
  · simp [ha]
  · simp [ha, hone]

/-- Dropping repetitions leaves each member once. -/
theorem eachOnce_eraseDups (l : List α) : EachOnce l.eraseDups l := by
  induction l using List.reverseRecOn with
  | nil => exact .nil
  | append_singleton l a ih =>
    rw [eraseDups_concat]
    split
    · next ha => exact ih.again ha
    · next ha => exact ih.concat ha

/-- Taking a list apart by a key loses nothing and doubles nothing. -/
theorem perm_flatMap_filter {β : Type} {key : β → α} {keys : List α} (hkeys : keys.Nodup)
    {l : List β} (h : ∀ b ∈ l, key b ∈ keys) :
    (keys.flatMap fun k => l.filter (key · = k)).Perm l := by
  induction keys generalizing l with
  | nil =>
    have hnil : l = [] := List.eq_nil_iff_forall_not_mem.2 fun b hb => List.not_mem_nil (h b hb)
    rw [hnil, List.flatMap_nil]
  | cons k keys ih =>
    obtain ⟨hk, hkeys⟩ := List.nodup_cons.1 hkeys
    -- The later keys find the same in what the first one leaves.
    have hothers : (keys.flatMap fun j => l.filter (key · = j)) =
        keys.flatMap fun j => (l.filter fun b => !decide (key b = k)).filter (key · = j) := by
      apply List.flatMap_congr
      intro j hj
      have hne : j ≠ k := fun heq => hk (heq ▸ hj)
      rw [List.filter_filter]
      apply List.filter_congr
      intro b _
      by_cases hb : key b = j
      · simp [hb, hne]
      · simp [hb]
    have hrest : ∀ b ∈ l.filter (fun b => !decide (key b = k)), key b ∈ keys := by
      intro b hb
      rw [List.mem_filter, Bool.not_eq_true', decide_eq_false_iff_not] at hb
      exact (List.mem_cons.1 (h b hb.1)).resolve_left hb.2
    rw [List.flatMap_cons, hothers]
    exact ((ih hkeys hrest).append_left _).trans (List.filter_append_perm _ l)

end DialogTable
