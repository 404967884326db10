/-!
# Blank and control characters

Trimming, emptiness tests and token splitting all use one notion of a blank character: the
white-space property of Unicode. Control characters are the general category of that name. Case is
folded for the letters `A` to `Z` only.
-/

namespace DialogTable.Text

/-- The white-space code points, as closed ranges in ascending order. -/
def blankRanges : List (Nat × Nat) :=
  [(0x09, 0x0D), (0x20, 0x20), (0x85, 0x85), (0xA0, 0xA0), (0x1680, 0x1680), (0x2000, 0x200A),
    (0x2028, 0x2029), (0x202F, 0x202F), (0x205F, 0x205F), (0x3000, 0x3000)]

/-- White space in the sense of Unicode. -/
def isBlank (c : Char) : Bool :=
  blankRanges.any fun range => range.1 ≤ c.toNat && c.toNat ≤ range.2

/-- The two blocks of control characters. -/
def isControl (c : Char) : Bool :=
  c.toNat ≤ 0x1F || (0x7F ≤ c.toNat && c.toNat ≤ 0x9F)

/-- Drops the blank characters at the front. -/
def trimStart (text : List Char) : List Char :=
  text.dropWhile isBlank

/-- Drops the blank characters at the end. -/
def trimEnd (text : List Char) : List Char :=
  (text.reverse.dropWhile isBlank).reverse

/-- Drops the blank characters on both sides. -/
def trim (text : List Char) : List Char :=
  trimEnd (trimStart text)

/-- A text of blank characters only, the empty text included. -/
def allBlank (text : List Char) : Bool :=
  text.all isBlank

/-- `trim` on strings. -/
def trimmed (text : String) : String :=
  .ofList (trim text.toList)

/-- `allBlank` on strings. -/
def isBlankText (text : String) : Bool :=
  allBlank text.toList

/-- A text that says something; one of blank characters only counts as absent. -/
def unlessBlank (text : String) : Option String :=
  if isBlankText text then none else some text

/-- Folds the case of the letters `A` to `Z`. -/
def foldCase (text : List Char) : List Char :=
  text.map Char.toLower

/-- Equality up to the case of the letters `A` to `Z`. -/
def sameLetters (a b : String) : Bool :=
  foldCase a.toList == foldCase b.toList

/-! ### Small facts -/

theorem allBlank_iff {text : List Char} : allBlank text = true ↔ ∀ c ∈ text, isBlank c = true := by
  simp [allBlank]

end DialogTable.Text
