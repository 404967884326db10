import DialogTable.Proofs.Node.Fields

/-!
# Misread routing tables

No text of a routing table is shorter than the written one (`length_join_le`), and commas or quotes
behind it spoil its last entry (`readTable_append_ne`).
-/

namespace DialogTable.Route

/-- A route takes at least as many characters as its written form. -/
theorem length_text_le {entry : List Char} {route : Route} (h : read entry = some route) :
    route.text.toList.length ≤ entry.length := by
  obtain ⟨label, target, rfl, hlabel, hn⟩ := exists_of_read h
  have hle := Text.length_trim_le label
  have htrim := Text.length_trim_le target
  have htarget := Text.length_toString_le hn
  rw [toList_text, hlabel, String.toList_ofList, List.length_append, List.length_append,
    List.length_cons, List.length_cons]
  omega

theorem sum_length_filterMap_le (entries : List (List Char)) :
    ((entries.filterMap fun entry => read (Text.trim entry)).map fun route =>
        route.text.toList.length + 1).sum ≤ (entries.map fun entry => entry.length + 1).sum := by
  induction entries with
  | nil => exact Nat.le_refl 0
  | cons entry rest ih =>
    rw [List.filterMap_cons, List.map_cons, List.sum_cons]
    cases hread : read (Text.trim entry) with
    | none => exact ih.trans (Nat.le_add_left _ _)
    | some route =>
      have htext := length_text_le hread
      have htrim := Text.length_trim_le entry
      simp only [List.map_cons, List.sum_cons]
      omega

/-- The written routing table. -/
theorem sum_length_text {routes : List Route} (hne : routes ≠ []) (h : ∀ route ∈ routes, route.Regular) :
    (routes.map fun route => route.text.toList.length + 1).sum =
      (Text.join listSeparator.toString (routes.map text)).toList.length + 1 := by
  rw [← Text.sum_length_splitAt (· = listSeparator), splitAt_join hne h, List.map_map]
  rfl

theorem length_join_le (raw : List Char) :
    (Text.join listSeparator.toString ((readTable raw).map text)).toList.length ≤ raw.length := by
  by_cases hne : readTable raw = []
  · rw [hne]
    exact Nat.zero_le _
  · have hsum := sum_length_filterMap_le (Text.splitAt (· = listSeparator) raw)
    have htext := sum_length_text hne fun _ => regular_of_mem_readTable
    rw [Text.sum_length_splitAt, ← readTable, htext] at hsum
    omega

/-- An entry with a comma or a quote at its end is no route. -/
theorem read_eq_none {entry : List Char} {c : Char} (h : entry.getLast? = some c)
    (hc : c = ',' ∨ c = '"') : read (Text.trim entry) = none := by
  have hblank : Text.isBlank c = false := by
    rcases hc with rfl | rfl <;> rfl
  have hlast : (Text.trim entry).getLast? = some c := Text.getLast?_trim h hblank
  by_contra hsome
  obtain ⟨route, hroute⟩ := Option.ne_none_iff_exists'.1 hsome
  obtain ⟨label, target, htrim, -, hn⟩ := exists_of_read hroute
  rw [htrim] at hlast
  have hmem : c ∈ Text.trim target := by
    have hne : target ≠ [] := by
      rintro rfl
      cases hn
    rw [List.getLast?_append_of_ne_nil _ (List.cons_ne_nil _ _),
      List.getLast?_cons_of_ne_nil hne] at hlast
    exact Text.mem_trim_of_not_isBlank (List.mem_of_getLast? hlast) hblank
  have hsign := Text.isDigit_or_sign_of_mem hn hmem
  rcases hc with rfl | rfl <;> exact absurd hsign (by decide)

/-- Commas and quotes behind a routing table take a route from it. -/
theorem readTable_append_ne {routes : List Route} (hne : routes ≠ [])
    (h : ∀ route ∈ routes, route.Regular) {more : List Char} (hmore : more ≠ [])
    (hc : ∀ c ∈ more, c = ',' ∨ c = '"') :
    readTable ((Text.join listSeparator.toString (routes.map text)).toList ++ more) ≠ routes := by
  intro heq
  have hsep : ∀ c ∈ more, decide (c = listSeparator) = false := by
    intro c hmem
    rcases hc c hmem with rfl | rfl <;> decide
  obtain ⟨parts, last, hsplit, happend⟩ := Text.splitAt_append hsep
    (Text.join listSeparator.toString (routes.map text)).toList
  rw [splitAt_join hne h] at hsplit
  obtain ⟨c, hlast⟩ : ∃ c, more.getLast? = some c :=
    Option.isSome_iff_exists.1 (List.getLast?_isSome.2 hmore)
  have hnone : read (Text.trim (last ++ more)) = none := by
    apply read_eq_none (c := c) _ (hc c (List.mem_of_getLast? hlast))
    rw [List.getLast?_append_of_ne_nil _ hmore, hlast]
  rw [readTable, happend, List.filterMap_append, List.filterMap_cons, hnone, List.filterMap_nil,
    List.append_nil] at heq
  have hfound := List.length_filterMap_le (fun entry => read (Text.trim entry)) parts
  have hlen := congrArg List.length hsplit
  rw [List.length_map, List.length_append, List.length_singleton] at hlen
  rw [heq] at hfound
  omega

end DialogTable.Route
