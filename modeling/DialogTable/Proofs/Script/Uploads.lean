import DialogTable.Script

/-!
# The set of uploaded names

Uploads are a set of names, held in ascending order. Each operation keeps the order
(`Uploads.Ascending`); the lemmas on members say what it does to the set.
-/

namespace DialogTable.Script

theorem mem_insertName {name other : String} {names : List String} :
    other ∈ insertName name names ↔ other = name ∨ other ∈ names := by
  induction names with
  | nil => simp [insertName]
  | cons n rest ih =>
    rw [insertName]
    by_cases heq : name = n
    · simp [heq]
    · by_cases hlt : name < n
      · simp [heq, hlt]
      · simp only [heq, hlt, if_false, List.mem_cons, ih]
        exact or_left_comm

theorem pairwise_insertName (name : String) {names : List String} (h : names.Pairwise (· < ·)) :
    (insertName name names).Pairwise (· < ·) := by
  induction names with
  | nil => exact List.pairwise_singleton _ name
  | cons n rest ih =>
    obtain ⟨hn, hrest⟩ := List.pairwise_cons.1 h
    rw [insertName]
    by_cases heq : name = n
    · rwa [if_pos heq]
    · rw [if_neg heq]
      by_cases hlt : name < n
      · rw [if_pos hlt, List.pairwise_cons]
        refine ⟨fun other hother => ?_, h⟩
        rcases List.mem_cons.1 hother with rfl | hother
        · exact hlt
        · exact String.lt_trans hlt (hn other hother)
      · rw [if_neg hlt, List.pairwise_cons]
        refine ⟨fun other hother => ?_, ih hrest⟩
        rcases mem_insertName.1 hother with rfl | hother
        · refine String.not_le.1 fun hle => heq ?_
          exact String.le_antisymm hle (String.not_lt.1 hlt)
        · exact hn other hother

namespace Uploads

/-- The names stand in ascending order, each once. -/
def Ascending (uploads : Uploads) : Prop :=
  uploads.names.Pairwise (· < ·)

theorem mem_names_insert {uploads : Uploads} {name other : String} :
    other ∈ (uploads.insert name).names ↔ other = name ∨ other ∈ uploads.names :=
  mem_insertName

theorem mem_names_erase {uploads : Uploads} {name other : String} :
    other ∈ (uploads.erase name).names ↔ other ∈ uploads.names ∧ other ≠ name := by
  simp [erase]

theorem mem_names_foldl_insert {uploads : Uploads} {names : List String} {other : String} :
    other ∈ (names.foldl insert uploads).names ↔ other ∈ names ∨ other ∈ uploads.names := by
  induction names generalizing uploads with
  | nil => simp
  | cons name later ih =>
    rw [List.foldl_cons, ih, mem_names_insert, List.mem_cons]
    exact or_left_comm.trans or_assoc.symm

theorem mem_names_ofList {names : List String} {other : String} :
    other ∈ (ofList names).names ↔ other ∈ names := by
  rw [ofList, mem_names_foldl_insert]
  simp

/-! ### The order is kept -/

theorem ascending_empty : ({} : Uploads).Ascending :=
  List.Pairwise.nil

namespace Ascending

variable {uploads : Uploads}

theorem insert (h : uploads.Ascending) (name : String) : (uploads.insert name).Ascending :=
  pairwise_insertName name h

theorem erase (h : uploads.Ascending) (name : String) : (uploads.erase name).Ascending :=
  h.filter _

theorem foldl_insert (h : uploads.Ascending) (names : List String) :
    (names.foldl Uploads.insert uploads).Ascending := by
  induction names generalizing uploads with
  | nil => exact h
  | cons name later ih => exact ih (h.insert name)

theorem insertAccepted (h : uploads.Ascending) (names : List String) :
    (uploads.insertAccepted names).Ascending :=
  h.foldl_insert _

end Ascending

theorem ascending_ofList (names : List String) : (ofList names).Ascending :=
  ascending_empty.foldl_insert names

end Uploads

end DialogTable.Script
