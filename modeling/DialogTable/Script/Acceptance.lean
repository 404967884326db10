import DialogTable.Repair.Session

/-!
# Scripts of accepted tables

A repair that ends with an accepted table has uploaded the scripts that came with it. Its account
names them; the names of commands that the runtime provides do not count.
-/

namespace DialogTable.Script.Uploads

/-- Adds a name, and counts it if it is new. -/
def insertCounting (counted : Uploads × Nat) (name : String) : Uploads × Nat :=
  (counted.1.insert name, if counted.1.contains name then counted.2 else counted.2 + 1)

/-- Adds the custom scripts of an account, with the number of new names. Without an accepted table
nothing changes. -/
def recordAccepted (uploads : Uploads) (account : Repair.Account) : Uploads × Nat :=
  if account.valid then
    (account.acceptedScripts.filter (!isSystem ·)).foldl insertCounting (uploads, 0)
  else (uploads, 0)

/-! ### Small facts -/

theorem recordAccepted_of_not_valid (uploads : Uploads) {account : Repair.Account}
    (h : account.valid = false) : uploads.recordAccepted account = (uploads, 0) := by
  simp [recordAccepted, h]

theorem fst_foldl_insertCounting (names : List String) (counted : Uploads × Nat) :
    (names.foldl insertCounting counted).1 = names.foldl insert counted.1 := by
  induction names generalizing counted with
  | nil => rfl
  | cons name later ih => exact ih (insertCounting counted name)

/-- The names that are added are the custom ones. -/
theorem fst_recordAccepted_of_valid (uploads : Uploads) {account : Repair.Account}
    (h : account.valid = true) :
    (uploads.recordAccepted account).1 = uploads.insertAccepted account.acceptedScripts := by
  rw [recordAccepted, if_pos h, fst_foldl_insertCounting]
  rfl

end DialogTable.Script.Uploads
