import DialogTable.Settings
import DialogTable.Proofs.Repair.Errors
import DialogTable.Proofs.Validation.Idempotence

/-!
# What is known before the first submission

Structural fixes end in one of two ways. Once nothing more is to be fixed, they note the issues of
the table that they leave. If the passes are spent before, they leave a fixed table behind and note
nothing, so that no errors are known though the table may have issues
(`Setup.tellsIssues_prepare_iff`). One pass more than there are issues is always enough, and two
are if the fixed text stays fixed.
-/

namespace DialogTable.Repair

variable {σ : Type}

/-! ### The table that is left -/

namespace Run

theorem tableText_noteIssues (run : Run σ) (report : Validation.Report) :
    (run.noteIssues report).session.tableText = run.session.tableText := by
  unfold noteIssues
  split
  · rfl
  · rfl

theorem tableText_installFixed (run : Run σ) (report : Validation.Report) :
    (run.installFixed report).session.tableText =
      report.fixedText.getD run.session.tableText := by
  rw [installFixed, session_addFixes, session_update]

/-- If the passes suffice, the issues that they end with are those of the table that is left. -/
theorem leftovers_eq_issues {policy : Validation.Policy} {passes : Nat} {previous : Option Nat}
    {run : Run σ} {found : List Validation.Issue}
    (h : leftovers policy passes previous run.session.tableText = some found) :
    found = Validation.issues policy
      (Table.ofText (run.restructure policy passes previous).session.tableText).nodes := by
  induction passes generalizing previous run with
  | zero => cases h
  | succ passes ih =>
    have hissues := Validation.issues_validate policy true run.session.tableText
    unfold leftovers at h
    unfold restructure
    generalize Validation.validate policy true run.session.tableText = report at h hissues ⊢
    dsimp only at h ⊢
    split at h
    · next hsettled => rw [if_pos hsettled, tableText_noteIssues, ← hissues, Option.some.inj h]
    · next hsettled =>
      rw [← tableText_installFixed] at h
      rw [if_neg hsettled]
      exact ih h

theorem tableText_clean (run : Run σ) :
    run.clean.session.tableText = .ofList (Text.clean run.session.tableText.toList).text := by
  rw [clean, session_addFixes]
  rfl

end Run

/-! ### The last pass -/

/-- The text that some passes of fixes lead to. -/
def afterPasses (policy : Validation.Policy) : Nat → String → String
  | 0, tableText => tableText
  | pass + 1, tableText =>
    afterPasses policy pass (Validation.fixedTable policy tableText).toText

/-- What a pass of fixes finds and fixes. -/
def passReport (policy : Validation.Policy) (tableText : String) (pass : Nat) :
    Validation.Report :=
  Validation.validate policy true (afterPasses policy pass tableText)

theorem passReport_succ (policy : Validation.Policy) (tableText : String) (pass : Nat) :
    passReport policy tableText (pass + 1) =
      passReport policy (Validation.fixedTable policy tableText).toText pass := by
  rw [passReport, afterPasses, passReport]

/-- A pass is a last one if it finds nothing to fix, or fixes nothing, or does not find less than
the pass before. -/
def IsLastPass (policy : Validation.Policy) (tableText : String) (pass : Nat) : Prop :=
  (passReport policy tableText pass).fixableCount = 0 ∨
    (passReport policy tableText pass).appliedFixes = [] ∨
    ∃ before, before + 1 = pass ∧
      (passReport policy tableText before).issues.length ≤
        (passReport policy tableText pass).issues.length

section Passes

variable {policy : Validation.Policy}

/-- How many issues the pass before one has found. -/
def countBefore (policy : Validation.Policy) (previous : Option Nat) (tableText : String) :
    Nat → Option Nat
  | 0 => previous
  | before + 1 => some (passReport policy tableText before).issues.length

theorem countBefore_succ (previous : Option Nat) (tableText : String) (pass : Nat) :
    countBefore policy previous tableText (pass + 1) =
      countBefore policy (some (passReport policy tableText 0).issues.length)
        (Validation.fixedTable policy tableText).toText pass := by
  cases pass with
  | zero => rfl
  | succ before => rw [countBefore, countBefore, passReport_succ]

/-- Structural fixes note something exactly if they come to a pass that settles the table. -/
theorem isSome_leftovers_iff_isSettled {passes : Nat} {previous : Option Nat}
    {tableText : String} :
    (leftovers policy passes previous tableText).isSome ↔
      ∃ pass < passes, Run.isSettled (countBefore policy previous tableText pass)
        (passReport policy tableText pass) = true := by
  induction passes generalizing previous tableText with
  | zero => simp [leftovers]
  | succ passes ih =>
    rw [Nat.exists_lt_succ_left]
    simp only [countBefore_succ, passReport_succ]
    unfold leftovers
    dsimp only
    split
    · next hsettled => exact iff_of_true rfl (.inl hsettled)
    · next hsettled =>
      rw [Validation.fixedText_validate, Option.getD_some, ih]
      exact (or_iff_right hsettled).symm

theorem isSome_leftovers_iff {passes : Nat} {tableText : String} :
    (leftovers policy passes none tableText).isSome ↔
      ∃ pass < passes, IsLastPass policy tableText pass := by
  rw [isSome_leftovers_iff_isSettled]
  refine exists_congr fun pass => and_congr_right fun _ => ?_
  simp only [Run.isSettled, IsLastPass, Bool.or_eq_true, decide_eq_true_eq, List.isEmpty_iff,
    or_assoc]
  cases pass with
  | zero => simp [countBefore]
  | succ before => simp [countBefore]

/-! ### Passes that suffice -/

/-- A pass after which there is another one has found something, and less than the pass before. -/
theorem Run.length_issues_of_not_isSettled {previous : Option Nat} {report : Validation.Report}
    (h : ¬ isSettled previous report = true) :
    0 < report.issues.length ∧ ∀ n, previous = some n → report.issues.length < n := by
  simp only [isSettled, Bool.or_eq_true, decide_eq_true_eq, not_or] at h
  obtain ⟨⟨hfixable, -⟩, hprevious⟩ := h
  constructor
  · exact Nat.lt_of_lt_of_le (Nat.pos_of_ne_zero hfixable) List.countP_le_length
  · rintro n rfl
    simpa using hprevious

theorem isSome_leftovers_of_le {passes previous : Nat} (hpasses : 0 < passes)
    (h : previous ≤ passes) (tableText : String) :
    (leftovers policy passes (some previous) tableText).isSome := by
  induction passes generalizing previous tableText with
  | zero => exact absurd hpasses (Nat.lt_irrefl 0)
  | succ passes ih =>
    unfold leftovers
    generalize Validation.validate policy true tableText = report
    dsimp only
    split
    · rfl
    · next hsettled =>
      obtain ⟨hpos, hless⟩ := Run.length_issues_of_not_isSettled hsettled
      have hlt := hless previous rfl
      exact ih (by omega) (by omega) _

/-- One pass more than there are issues suffices. -/
theorem isSome_leftovers_of_length_lt {passes : Nat} {tableText : String}
    (h : (Validation.issues policy (Table.ofText tableText).nodes).length < passes) :
    (leftovers policy passes none tableText).isSome := by
  obtain ⟨passes, rfl⟩ := Nat.exists_eq_succ_of_ne_zero (Nat.ne_zero_of_lt h)
  rw [← Validation.issues_validate policy true] at h
  unfold leftovers
  generalize Validation.validate policy true tableText = report at h ⊢
  dsimp only
  split
  · rfl
  · next hsettled =>
    have hpos := (Run.length_issues_of_not_isSettled hsettled).1
    exact isSome_leftovers_of_le (by omega) (by omega) _

/-- Two passes suffice if the fixed text stays fixed. -/
theorem isSome_leftovers_of_staysFixed {passes : Nat} {tableText : String} (hpasses : 2 ≤ passes)
    (h : Validation.StaysFixed policy tableText) :
    (leftovers policy passes none tableText).isSome := by
  obtain ⟨passes, rfl⟩ := Nat.exists_eq_add_of_le' hpasses
  obtain ⟨fixedText, hfixed, hcount, -⟩ := h
  unfold leftovers
  dsimp only
  split
  · rfl
  · rw [hfixed, Option.getD_some]
    unfold leftovers
    dsimp only
    rw [if_pos]
    · rfl
    · simp [Run.isSettled, hcount]

end Passes

/-! ### Prepared sessions -/

/-- The errors that remain are the issues of the table, in the same order. -/
def Session.TellsIssues (policy : Validation.Policy) (session : Session) : Prop :=
  session.remainingErrors =
    (Validation.validate policy false session.tableText).issues.map Validation.Issue.text

/-- The text that a repair begins to fix. -/
def Setup.cleanText (setup : Setup σ) : String :=
  .ofList (Text.clean setup.job.tableText.toList).text

/-- If nothing is known before structural fixes, they note the issues of the table that they leave,
or nothing. -/
theorem Run.remainingErrors_restructure_of_nil {policy : Validation.Policy} {run : Run σ}
    (hcomplaints : run.session.complaints = []) (herrors : run.session.remainingErrors = [])
    (passes : Nat) :
    (run.restructure policy passes none).session.remainingErrors =
      if (leftovers policy passes none run.session.tableText).isSome then
        (Validation.validate policy false
          (run.restructure policy passes none).session.tableText).issues.map Validation.Issue.text
      else [] := by
  rw [remainingErrors_restructure, if_pos hcomplaints, herrors]
  cases hfound : leftovers policy passes none run.session.tableText with
  | none => rfl
  | some found =>
    rw [Option.map_some, Option.getD_some, Option.isSome_some, if_pos rfl,
      Validation.issues_validate, ← leftovers_eq_issues hfound]

namespace Setup

theorem remainingErrors_prepare (setup : Setup σ) (services : σ) (clock : Clock) :
    (setup.prepare (setup.initial services clock)).session.remainingErrors =
      if (leftovers setup.policy setup.limits.maxStructuralPasses none setup.cleanText).isSome then
        (Validation.validate setup.policy false
          (setup.prepare (setup.initial services clock)).session.tableText).issues.map
          Validation.Issue.text
      else [] := by
  have htext : ((setup.initial services clock).clean.enter .structuralFix).session.tableText =
      setup.cleanText := by
    rw [Run.session_enter, Run.tableText_clean, cleanText]
    rfl
  obtain ⟨tableText, fixesApplied, hclean⟩ := (setup.initial services clock).session_clean
  rw [prepare_eq, ← htext]
  apply Run.remainingErrors_restructure_of_nil
  · rw [Run.session_enter, hclean]
    rfl
  · rw [Run.session_enter, hclean]
    rfl

/-- **The errors before the first submission.** A prepared session tells the issues of its table
exactly if one of the passes was a last one, or the table has no issue. There is such a pass if
there may be more passes than the cleaned table has issues, or if there may be two and the fixed
text stays fixed. -/
theorem tellsIssues_prepare_iff (setup : Setup σ) (services : σ) (clock : Clock) :
    let prepared := (setup.prepare (setup.initial services clock)).session
    (prepared.TellsIssues setup.policy ↔
      (∃ pass < setup.limits.maxStructuralPasses,
        IsLastPass setup.policy setup.cleanText pass) ∨
      (Validation.validate setup.policy false prepared.tableText).issues = []) ∧
    ((Validation.validate setup.policy false setup.cleanText).issues.length <
        setup.limits.maxStructuralPasses →
      prepared.TellsIssues setup.policy) ∧
    (2 ≤ setup.limits.maxStructuralPasses → Validation.StaysFixed setup.policy setup.cleanText →
      prepared.TellsIssues setup.policy) := by
  intro prepared
  have herrors := setup.remainingErrors_prepare services clock
  rw [← isSome_leftovers_iff]
  have htells : (leftovers setup.policy setup.limits.maxStructuralPasses none
      setup.cleanText).isSome → prepared.TellsIssues setup.policy := by
    intro hsome
    rw [if_pos hsome] at herrors
    exact herrors
  refine ⟨⟨?_, ?_⟩, ?_, ?_⟩
  · intro htell
    rw [or_iff_not_imp_left]
    intro hnone
    rw [if_neg hnone] at herrors
    exact List.map_eq_nil_iff.mp (htell.symm.trans herrors)
  · rintro (hsome | hclean)
    · exact htells hsome
    · rw [hclean, List.map_nil, ite_self] at herrors
      rw [Session.TellsIssues, hclean]
      exact herrors
  · intro hlt
    rw [Validation.issues_validate] at hlt
    exact htells (isSome_leftovers_of_length_lt hlt)
  · intro hpasses hfixed
    exact htells (isSome_leftovers_of_staysFixed hpasses hfixed)

/-- An action without a route for errors, and one without a command. The first pass adds the
route. -/
def idleText : String := "h\n5,A,n,,,,,,,,,,,Cmd\n99990,A,idle\n"

/-- Ten passes are more than the two issues, and two are enough as the fixed text stays fixed. -/
theorem tellsIssues_prepare_of_ten_passes :
    let ten := Tape.setup idleText
    let two : Setup Tape := { ten with limits := { maxStructuralPasses := 2 } }
    (ten.prepare (ten.initial {} {})).session.TellsIssues ten.policy ∧
      (two.prepare (two.initial {} {})).session.TellsIssues two.policy := by
  intro ten two
  have hcount : (Validation.validate ten.policy false ten.cleanText).issues.length <
      ten.limits.maxStructuralPasses := by decide +kernel
  have hfixed : Validation.StaysFixed two.policy two.cleanText := by
    rw [Validation.staysFixed_iff_settled]
    constructor
    · exact Validation.noReturns_fixedTable _ _ (by decide +kernel)
    · rw [Validation.nodes_fixedTable]
      decide +kernel
  exact ⟨(tellsIssues_prepare_iff ten {} {}).2.1 hcount,
    (tellsIssues_prepare_iff two {} {}).2.2 (Nat.le_refl 2) hfixed⟩

/-- If one pass is all there may be, a table that was fixed is handed on without its issues. -/
theorem not_tellsIssues_prepare_of_one_pass :
    ¬ ∀ (settings : Settings) (tableText : String), settings.validate = .ok () →
      let setup : Setup Tape :=
        { Tape.setup tableText with limits := settings.limits, policy := settings.policy }
      (setup.prepare (setup.initial {} {})).session.TellsIssues settings.policy := by
  intro hall
  let setup : Setup Tape := { Tape.setup idleText with limits := { maxStructuralPasses := 1 } }
  have htells : (setup.prepare (setup.initial {} {})).session.TellsIssues {} :=
    hall { limits := { maxStructuralPasses := 1 } } idleText rfl
  have herrors : (setup.prepare (setup.initial {} {})).session.remainingErrors = [] := by
    decide +kernel
  have hcontent : Validation.checkContent
      (Table.ofText (setup.prepare (setup.initial {} {})).session.tableText).nodes ≠ [] := by
    decide +kernel
  apply Validation.issues_ne_nil_of_checkContent hcontent
  rw [Session.TellsIssues, herrors, Validation.issues_validate] at htells
  exact List.map_eq_nil_iff.mp htells.symm

end Setup

end DialogTable.Repair
