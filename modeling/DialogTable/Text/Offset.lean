/-!
# Places in a text

A place in a text is the number of bytes before it in the encoding UTF-8. A text can be cut only
between two characters: a cut outside of it or inside of a character fails.
-/

namespace DialogTable.Text

/-- The number of bytes of a text. -/
def byteSize : List Char → Nat
  | [] => 0
  | c :: rest => c.utf8Size + byteSize rest

/-- The text from a place on, if it can be cut there. -/
def drop? (place : Nat) : List Char → Option (List Char)
  | [] => if place = 0 then some [] else none
  | c :: rest =>
    if place = 0 then some (c :: rest)
    else if c.utf8Size ≤ place then drop? (place - c.utf8Size) rest
    else none

/-- A cut that failed. -/
structure BadCut where
  place : Nat
  deriving DecidableEq, Repr

/-- Cuts off what stands before a place. -/
def cut (place : Nat) (text : List Char) : Except BadCut (List Char) :=
  (drop? place text).elim (.error { place }) .ok

/-- The first place at which a word stands. -/
def find? (word : List Char) : List Char → Option Nat
  | [] => if word = [] then some 0 else none
  | c :: rest =>
    if word.isPrefixOf (c :: rest) then some 0 else (find? word rest).map (c.utf8Size + ·)

/-! ### Small facts -/

theorem byteSize_append (a b : List Char) : byteSize (a ++ b) = byteSize a + byteSize b := by
  induction a with
  | nil => rw [List.nil_append, byteSize, Nat.zero_add]
  | cons c a ih => rw [List.cons_append, byteSize, ih, byteSize, Nat.add_assoc]

theorem drop?_zero (text : List Char) : drop? 0 text = some text := by
  cases text with
  | nil => rfl
  | cons c rest => rfl

theorem drop?_append (before rest : List Char) :
    drop? (byteSize before) (before ++ rest) = some rest := by
  induction before with
  | nil => exact drop?_zero rest
  | cons c before ih =>
    have hpos := c.utf8Size_pos
    have hrest : byteSize (c :: before) - c.utf8Size = byteSize before := by
      rw [byteSize, Nat.add_sub_cancel_left]
    rw [List.cons_append, drop?, hrest, ih, if_neg (by rw [byteSize]; omega),
      if_pos (by rw [byteSize]; omega)]

theorem le_byteSize_of_drop? {place : Nat} {text rest : List Char}
    (h : drop? place text = some rest) : place ≤ byteSize text := by
  induction text generalizing place with
  | nil =>
    rw [drop?] at h
    split at h
    · next hzero => exact Nat.le_of_eq hzero
    · cases h
  | cons c text ih =>
    rw [drop?] at h
    split at h
    · next hzero => exact hzero ▸ Nat.zero_le _
    · split at h
      · have hle := ih h
        rw [byteSize]
        omega
      · cases h

theorem cut_append (before rest : List Char) :
    cut (byteSize before) (before ++ rest) = .ok rest := by
  rw [cut, drop?_append, Option.elim_some]

theorem le_byteSize_of_cut {place : Nat} {text rest : List Char} (h : cut place text = .ok rest) :
    place ≤ byteSize text := by
  cases hdrop : drop? place text with
  | none =>
    rw [cut, hdrop] at h
    cases h
  | some _ => exact le_byteSize_of_drop? hdrop

end DialogTable.Text
