/-!
# Splitting at separators

A separator splits a text into parts, empty ones included: `n` separators give `n + 1` parts. The
first or the last occurrence of one character splits it in two.
-/

namespace DialogTable.Text

/-- The part before the first separator, and the parts after it. -/
def splitParts (sep : Char → Bool) : List Char → List Char × List (List Char)
  | [] => ([], [])
  | c :: rest =>
    let split := splitParts sep rest
    if sep c then ([], split.1 :: split.2) else (c :: split.1, split.2)

/-- The parts between separators. -/
def splitAt (sep : Char → Bool) (text : List Char) : List (List Char) :=
  (splitParts sep text).1 :: (splitParts sep text).2

/-- The parts that are not empty. -/
def tokens (sep : Char → Bool) (text : List Char) : List (List Char) :=
  (splitAt sep text).filter (· ≠ [])

/-- The texts before and after the first `sep`. -/
def splitFirst (sep : Char) : List Char → Option (List Char × List Char)
  | [] => none
  | c :: rest =>
    if c = sep then some ([], rest)
    else (splitFirst sep rest).map fun split => (c :: split.1, split.2)

/-- The texts before and after the last `sep`. -/
def splitLast (sep : Char) : List Char → Option (List Char × List Char)
  | [] => none
  | c :: rest =>
    match splitLast sep rest with
    | some split => some (c :: split.1, split.2)
    | none => if c = sep then some ([], rest) else none

/-- The texts with a separator between each two. -/
def join (sep : String) (texts : List String) : String :=
  sep.intercalate texts

/-! ### Small facts -/

theorem splitLast_eq_some {sep : Char} {text before after : List Char}
    (h : splitLast sep text = some (before, after)) :
    text = before ++ sep :: after := by
  induction text generalizing before with
  | nil => simp [splitLast] at h
  | cons c rest ih =>
    simp only [splitLast] at h
    split at h
    · next split hs =>
      simp only [Option.some.injEq, Prod.mk.injEq] at h
      obtain ⟨rfl, rfl⟩ := h
      simpa using ih hs
    · split at h
      · next hc =>
        simp only [Option.some.injEq, Prod.mk.injEq] at h
        simp [← h.1, ← h.2, hc]
      · exact absurd h (by simp)

end DialogTable.Text
