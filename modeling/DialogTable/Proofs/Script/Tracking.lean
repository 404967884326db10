import DialogTable.Proofs.Script.Inventory
import DialogTable.Script.Acceptance
import Mathlib.Data.List.Induction

/-!
# Which scripts are uploaded after a history

The uploads start with given names. Afterwards names are marked and forgotten, and the accounts of
repairs are recorded. An event concerns a name if it says something of exactly this name, blanks
included. The last event that does so decides whether a custom script is uploaded
(`mem_names_after`), and so whether the inventory finds it missing (`missing_iff_last_forgotten`).
-/

namespace DialogTable.Script

/-! ### Counting what is new -/

theorem length_insertName {name : String} {names : List String} (h : names.Pairwise (· < ·)) :
    (insertName name names).length = if name ∈ names then names.length else names.length + 1 := by
  induction names with
  | nil => simp [insertName]
  | cons n rest ih =>
    obtain ⟨hn, hrest⟩ := List.pairwise_cons.1 h
    rw [insertName]
    by_cases heq : name = n
    · simp [heq]
    · by_cases hlt : name < n
      · have hnot : name ∉ rest := fun hmem => String.lt_asymm hlt (hn name hmem)
        simp [heq, hlt, hnot]
      · by_cases hmem : name ∈ rest
        · simp [heq, hlt, hmem, ih hrest]
        · simp [heq, hlt, hmem, ih hrest]

namespace Uploads

theorem size_insert {uploads : Uploads} (h : uploads.Ascending) (name : String) :
    (uploads.insert name).size =
      if uploads.contains name then uploads.size else uploads.size + 1 := by
  by_cases hmem : name ∈ uploads.names
  · simp [size, insert, length_insertName h, contains, hmem]
  · simp [size, insert, length_insertName h, contains, hmem]

/-- The count goes up with the number of names. -/
theorem size_foldl_insertCounting (names : List String) (counted : Uploads × Nat)
    (h : counted.1.Ascending) :
    (names.foldl insertCounting counted).1.size + counted.2 =
      counted.1.size + (names.foldl insertCounting counted).2 := by
  induction names generalizing counted with
  | nil => rfl
  | cons name later ih =>
    have hstep := ih (insertCounting counted name) (h.insert name)
    have hsize : (insertCounting counted name).1.size + counted.2 =
        counted.1.size + (insertCounting counted name).2 := by
      show (counted.1.insert name).size + counted.2 =
        counted.1.size + if counted.1.contains name then counted.2 else counted.2 + 1
      rw [size_insert h]
      split
      · rfl
      · omega
    rw [List.foldl_cons]
    omega

/-- Recording an account returns by how much the uploads grow. -/
theorem size_recordAccepted {uploads : Uploads} (h : uploads.Ascending)
    (account : Repair.Account) :
    (uploads.recordAccepted account).1.size =
      uploads.size + (uploads.recordAccepted account).2 := by
  rw [recordAccepted]
  split
  · exact size_foldl_insertCounting _ (uploads, 0) h
  · rfl

theorem mem_names_recordAccepted {uploads : Uploads} {account : Repair.Account} {name : String} :
    name ∈ (uploads.recordAccepted account).1.names ↔
      (account.valid = true ∧ name ∈ account.acceptedScripts ∧ isSystem name = false) ∨
        name ∈ uploads.names := by
  cases hvalid : account.valid with
  | false => simp [recordAccepted_of_not_valid uploads hvalid]
  | true =>
    rw [fst_recordAccepted_of_valid uploads hvalid, insertAccepted, mem_names_foldl_insert]
    simp

theorem Ascending.recordAccepted {uploads : Uploads} (h : uploads.Ascending)
    (account : Repair.Account) : (uploads.recordAccepted account).1.Ascending := by
  cases hvalid : account.valid with
  | false => rwa [recordAccepted_of_not_valid uploads hvalid]
  | true =>
    rw [fst_recordAccepted_of_valid uploads hvalid]
    exact h.insertAccepted _

end Uploads

/-! ### Histories -/

/-- What tells of uploads. -/
inductive UploadEvent
  | marked (name : String)
  | forgotten (name : String)
  /-- A repair handed its account back, of an accepted table or not. -/
  | recorded (account : Repair.Account)
  deriving DecidableEq, Repr

namespace UploadEvent

/-- The uploads after an event. -/
def run (uploads : Uploads) : UploadEvent → Uploads
  | marked name => uploads.insert name
  | forgotten name => (uploads.forget name).1
  | recorded account => (uploads.recordAccepted account).1

/-- Whether an event says something of exactly this name. The account of a table that was not
accepted says nothing. -/
def concerns (name : String) : UploadEvent → Bool
  | marked other | forgotten other => other = name
  | recorded account => account.valid && name ∈ account.acceptedScripts

/-- The last event that concerns a name. -/
def last? (name : String) (events : List UploadEvent) : Option UploadEvent :=
  (events.filter (·.concerns name)).getLast?

theorem last?_concat (name : String) (events : List UploadEvent) (event : UploadEvent) :
    last? name (events ++ [event]) =
      if event.concerns name then some event else last? name events := by
  by_cases h : event.concerns name = true
  · simp [last?, List.filter_append, h]
  · simp [last?, List.filter_append, h]

theorem ascending_run {uploads : Uploads} (h : uploads.Ascending) (event : UploadEvent) :
    (event.run uploads).Ascending := by
  cases event with
  | marked name => exact h.insert name
  | forgotten name => exact h.erase name
  | recorded account => exact h.recordAccepted account

/-- An event decides about the custom scripts that it concerns, and leaves the others. -/
theorem mem_names_run {name : String} (h : isSystem name = false) (uploads : Uploads)
    (event : UploadEvent) :
    name ∈ (event.run uploads).names ↔
      if event.concerns name then event ≠ forgotten name else name ∈ uploads.names := by
  cases event with
  | marked other =>
    by_cases heq : other = name
    · simp [run, concerns, Uploads.mem_names_insert, heq]
    · simp [run, concerns, Uploads.mem_names_insert, heq, Ne.symm heq]
  | forgotten other =>
    by_cases heq : other = name
    · simp [run, Uploads.forget, concerns, Uploads.mem_names_erase, heq]
    · simp [run, Uploads.forget, concerns, Uploads.mem_names_erase, heq, Ne.symm heq]
  | recorded account =>
    rw [run, Uploads.mem_names_recordAccepted]
    by_cases hlisted : account.valid = true ∧ name ∈ account.acceptedScripts
    · simp [concerns, hlisted, h]
    · rw [not_and] at hlisted
      cases hvalid : account.valid with
      | false => simp [concerns, hvalid]
      | true => simp [concerns, hvalid, hlisted hvalid]

end UploadEvent

namespace Uploads

/-- The uploads after events, one after another. -/
def after (uploads : Uploads) (events : List UploadEvent) : Uploads :=
  events.foldl UploadEvent.run uploads

theorem after_concat (uploads : Uploads) (events : List UploadEvent) (event : UploadEvent) :
    uploads.after (events ++ [event]) = event.run (uploads.after events) := by
  rw [after, List.foldl_append]
  rfl

theorem Ascending.after {uploads : Uploads} (h : uploads.Ascending) (events : List UploadEvent) :
    (uploads.after events).Ascending := by
  induction events using List.reverseRecOn with
  | nil => exact h
  | append_singleton events event ih =>
    rw [after_concat]
    exact event.ascending_run ih

/-- A custom script is uploaded if the last event that concerns it did not forget it, or if there is
none and it was uploaded before. -/
theorem mem_names_after {name : String} (h : isSystem name = false) (uploads : Uploads)
    (events : List UploadEvent) :
    name ∈ (uploads.after events).names ↔
      match UploadEvent.last? name events with
      | none => name ∈ uploads.names
      | some event => event ≠ .forgotten name := by
  induction events using List.reverseRecOn with
  | nil => exact Iff.rfl
  | append_singleton events event ih =>
    rw [after_concat, event.mem_names_run h, UploadEvent.last?_concat]
    by_cases hconcerns : event.concerns name = true
    · simp [hconcerns]
    · simp only [hconcerns, Bool.false_eq_true, if_false]
      exact ih

end Uploads

/-! ### What is missing -/

namespace Inventory

variable {nodes : List Node}

/-- The scripts that are called have references. -/
theorem script_mem_names (uploads : Uploads) {node : Node} (hn : node ∈ nodes)
    (hcalls : node.callsScript = true) :
    node.script ∈ (ofNodes uploads nodes).references.map (·.name) := by
  rw [names_ofNodes, List.mem_eraseDups, map_fst_uses]
  exact List.mem_map_of_mem (List.mem_filter.2 ⟨hn, hcalls⟩)

theorem script_mem_missing_iff {uploads : Uploads} {node : Node} (hn : node ∈ nodes)
    (hcalls : node.callsScript = true) (hcustom : isSystem node.script = false) :
    node.script ∈ (ofNodes uploads nodes).missing ↔ node.script ∉ uploads.names := by
  have hname := script_mem_names uploads hn hcalls
  have hnot : node.script ∉ Script.systemCommands := of_decide_eq_false hcustom
  rw [missing_ofNodes, customCommands_ofNodes, List.mem_filter, List.mem_filter]
  simp [hname, hnot]

end Inventory

open Inventory in
/-- **The last word on a name counts.** Whatever names the uploads start with and whatever happens to
them, a custom script that an action calls is missing exactly if the last event that concerns its
name forgot it, or if there is none and it was not given. Recording an account changes nothing if the
table was not accepted, adds no command of the runtime, and returns by how many names the uploads
grow. -/
theorem missing_iff_last_forgotten (given : List String) (events : List UploadEvent)
    (nodes : List Node) :
    let uploads := (Uploads.ofList given).after events
    (∀ node ∈ nodes, node.callsScript = true → isSystem node.script = false →
      (node.script ∈ (ofNodes uploads nodes).missing ↔
        UploadEvent.last? node.script events = some (.forgotten node.script) ∨
          (UploadEvent.last? node.script events = none ∧ node.script ∉ given))) ∧
      ∀ account : Repair.Account,
        (account.valid = false → uploads.recordAccepted account = (uploads, 0)) ∧
        (∀ name, isSystem name = true → name ∈ (uploads.recordAccepted account).1.names →
          name ∈ uploads.names) ∧
        (uploads.recordAccepted account).1.size =
          uploads.size + (uploads.recordAccepted account).2 := by
  intro uploads
  have hascending : uploads.Ascending := (Uploads.ascending_ofList given).after events
  refine ⟨fun node hn hcalls hcustom => ?_, fun account => ⟨?_, fun name hsystem hmem => ?_, ?_⟩⟩
  · rw [script_mem_missing_iff hn hcalls hcustom, Uploads.mem_names_after hcustom]
    cases UploadEvent.last? node.script events with
    | none => simp [Uploads.mem_names_ofList]
    | some event => simp
  · exact uploads.recordAccepted_of_not_valid
  · rcases Uploads.mem_names_recordAccepted.1 hmem with ⟨-, -, hcustom⟩ | hmem
    · exact absurd (hsystem.symm.trans hcustom) (by decide)
    · exact hmem
  · exact Uploads.size_recordAccepted hascending account

open Inventory in
/-- A given name that is forgotten and marked with blanks around it, and an account that names a
script before and behind a command of the runtime. -/
theorem missing_iff_last_forgotten_of_blanks :
    let account : Repair.Account :=
      { valid := true, acceptedScripts := ["Bar", "SetVar", "Bar"] }
    let events : List UploadEvent :=
      [.recorded { acceptedScripts := ["Foo"] }, .forgotten "Foo", .forgotten "Bar", .marked " Foo ",
        .recorded account]
    let uploads := (Uploads.ofList ["Foo"]).after events
    let foo : Node := { number := 1, kind := .action, name := "a", command := some " Foo " }
    let bar : Node := { number := 2, kind := .action, name := "b", command := some "Bar" }
    foo.callsScript = true ∧ isSystem foo.script = false ∧
      foo.script ∈ (ofNodes uploads [foo, bar]).missing ∧
      bar.script ∉ (ofNodes uploads [foo, bar]).missing ∧
      uploads.recordAccepted { acceptedScripts := ["New"] } = (uploads, 0) ∧
      "SetVar" ∉ (uploads.recordAccepted account).1.names ∧
      (uploads.recordAccepted { account with acceptedScripts := ["New", "New"] }).1.size = 3 := by
  intro account events uploads foo bar
  obtain ⟨hmissing, hrecord⟩ := missing_iff_last_forgotten ["Foo"] events [foo, bar]
  have hcalls : (foo.callsScript = true ∧ bar.callsScript = true) ∧
      isSystem foo.script = false ∧ isSystem bar.script = false := by decide +kernel
  have hlast : UploadEvent.last? foo.script events = some (.forgotten foo.script) ∧
      UploadEvent.last? bar.script events = some (.recorded account) := by decide +kernel
  have hnot : "SetVar" ∉ uploads.names := by decide +kernel
  refine ⟨hcalls.1.1, hcalls.2.1, ?_, ?_, (hrecord _).1 rfl, ?_, ?_⟩
  · exact (hmissing foo (by simp) hcalls.1.1 hcalls.2.1).2 (.inl hlast.1)
  · rw [hmissing bar (by simp) hcalls.1.2 hcalls.2.2, hlast.2]
    simp
  · exact fun hmem => hnot ((hrecord account).2.1 "SetVar" (by decide) hmem)
  · refine (hrecord _).2.2.trans ?_
    decide +kernel

end DialogTable.Script
