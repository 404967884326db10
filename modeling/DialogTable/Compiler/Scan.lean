import DialogTable.Compiler.Mention
import DialogTable.Text.Offset

/-!
# The search for the subject

The subject of a message is found in one pass: from one place of the word to the next, in a copy of
the message in small letters, which has its places in common with the message. A mention that does
not name the subject is kept if it is the first.
-/

namespace DialogTable.Compiler

/-- A search, between two places of the word. -/
structure Scan where
  /-- The number of the first mention so far. -/
  first : Option Int := none
  /-- The place to go on from. -/
  start : Nat := 0
  deriving DecidableEq, Repr

namespace Scan

/-- What a place of the word comes to: an end with the subject, or a search that goes on behind the
word. -/
def visit (message small : List Char) (first : Option Int) (place : Nat) :
    Except Text.BadCut (Option Int ⊕ Scan) := do
  let start := place + Text.byteSize Mention.word
  let behind ← Text.cut start small
  match Text.readNumber ((behind.dropWhile Mention.isGap).takeWhile Text.isDigit) with
  | none => return .inr { first, start }
  | some number =>
    let spelled ← Text.cut place message
    if Mention.capitalWord.isPrefixOf spelled then return .inl (some number)
    else return .inr { first := first.or (some number), start }

/-- Goes to the next place of the word. Without one the search ends. -/
def step (message small : List Char) (scan : Scan) : Except Text.BadCut (Option Int ⊕ Scan) := do
  let ahead ← Text.cut scan.start small
  match Text.find? Mention.word ahead with
  | none => return .inl scan.first
  | some found => visit message small scan.first (scan.start + found)

section Progress

variable {message small : List Char}

theorem start_of_visit {first : Option Int} {place : Nat} {next : Scan}
    (h : visit message small first place = .ok (.inr next)) :
    next.start = place + Text.byteSize Mention.word := by
  simp only [visit, bind, Except.bind, pure, Except.pure] at h
  split at h
  · cases h
  · split at h
    · cases h
      rfl
    · split at h
      · cases h
      · split at h
        · cases h
        · cases h
          rfl

/-- A search that goes on is further on in the message. -/
theorem progress_of_step {scan next : Scan} (h : step message small scan = .ok (.inr next)) :
    scan.start ≤ Text.byteSize small ∧ scan.start < next.start := by
  simp only [step, bind, Except.bind, pure, Except.pure] at h
  split at h
  · cases h
  · next ahead hahead =>
    refine ⟨Text.le_byteSize_of_cut hahead, ?_⟩
    split at h
    · cases h
    · have hstart := start_of_visit h
      have hword : 0 < Text.byteSize Mention.word := by decide
      omega

end Progress

/-- Steps until the search ends. -/
def run (message small : List Char) (scan : Scan) : Except Text.BadCut (Option Int) :=
  match h : step message small scan with
  | .error cut => .error cut
  | .ok (.inl subject) => .ok subject
  | .ok (.inr next) =>
    have := progress_of_step h
    run message small next
termination_by Text.byteSize small + 1 - scan.start

/-- Searches a message for its subject. -/
def subject (message : List Char) : Except Text.BadCut (Option Int) :=
  run message (Text.foldCase message) {}

end Scan

end DialogTable.Compiler
