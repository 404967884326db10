import DialogTable.Validation.Check

/-!
# Validation

Validation reports the issues of a table, and on request applies the fixes that the checks found. It
never fails. The issues always describe the table as it was given; the fixed table comes with them.
-/

namespace DialogTable.Validation

/-- What a validation found and did. -/
structure Report where
  issues : List Issue
  /-- The text of the fixed table, if fixes were requested. -/
  fixedText : Option String := none
  /-- The descriptions of the fixes that changed something. -/
  appliedFixes : List String := []
  deriving DecidableEq, Repr

namespace Report

/-- Nothing was found. -/
def valid (report : Report) : Bool :=
  report.issues.isEmpty

/-- The number of issues with a fix. -/
def fixableCount (report : Report) : Nat :=
  report.issues.countP (·.fixable)

/-- The issues that are left to the author. -/
def manualIssues (report : Report) : List Issue :=
  report.issues.filter (!·.fixable)

/-- One line for the verdict, one for each issue and one for each applied fix. -/
def listing (report : Report) : String :=
  let verdict :=
    if report.valid then ["Artifact is structurally valid."]
    else s!"{report.issues.length} issue(s) found, {report.fixableCount} auto-fixable:"
      :: report.issues.map fun issue =>
        (if issue.fixable then "  [fixable] " else "  [manual] ") ++ issue.text
  let fixes :=
    if report.appliedFixes = [] then []
    else s!"Applied {report.appliedFixes.length} fix(es):" :: report.appliedFixes.map ("  - " ++ ·)
  Text.closeLines (verdict ++ fixes)

end Report

/-- Validates a table. With `fix` the second result is the fixed table, else the table as given. -/
def validateTable (policy : Policy) (fix : Bool) (table : Table) : Report × Table :=
  let found := findings policy table.nodes
  let issues := found.map Finding.issue
  if fix then
    let (fixed, appliedFixes) := Fix.applyAll (found.filterMap Finding.fix) table
    ({ issues, fixedText := some fixed.toText, appliedFixes }, fixed)
  else ({ issues }, table)

/-- Validates the table that a text holds. -/
def validate (policy : Policy) (fix : Bool) (text : String) : Report :=
  (validateTable policy fix (Table.ofText text)).1

end DialogTable.Validation
