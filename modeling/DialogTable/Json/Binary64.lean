/-!
# Binary64 numbers

A finite number of the format binary64 is a sign and a magnitude `significand · 2 ^ exponent` with a
significand below `2 ^ 53`. The operations are exact: a quotient of natural numbers is rounded to
the nearest such number, and a tie goes to the even significand. There is no infinity; a result that
is too large is refused.

`shortest` finds the fewest decimal digits that read back as the same number.
-/

namespace DialogTable.Json

/-- A power of two. -/
def twoTo (n : Nat) : Nat := Nat.pow 2 n

/-- A power of ten. -/
def tenTo (n : Nat) : Nat := Nat.pow 10 n

/-- The number `significand · 2 ^ exponent`. -/
structure Magnitude where
  significand : Nat
  exponent : Int
  deriving DecidableEq, Repr

/-- A magnitude with a sign; zero has two. -/
structure Binary64 where
  negative : Bool
  magnitude : Magnitude
  deriving DecidableEq, Repr

namespace Magnitude

/-- The least exponent of the format. -/
def minExponent : Int := -1074

/-- The largest exponent of the format. -/
def maxExponent : Int := 971

def zero : Magnitude := ⟨0, minExponent⟩

/-- The magnitude as a quotient of natural numbers. -/
def ratio (x : Magnitude) : Nat × Nat :=
  (x.significand * twoTo x.exponent.toNat, twoTo (-x.exponent).toNat)

/-- Rounds `num / den / 2 ^ exponent` to the nearest natural number, a tie to the even one. -/
def roundScaled (num den : Nat) (exponent : Int) : Nat :=
  let n := num * twoTo (-exponent).toNat
  let d := den * twoTo exponent.toNat
  let q := n / d
  let r := n % d
  if 2 * r > d ∨ (2 * r = d ∧ q % 2 = 1) then q + 1 else q

/-- The nearest magnitude to `num / den`, or none if it is too large. -/
def ofRatio (num den : Nat) : Option Magnitude :=
  if num = 0 then some zero
  else
    let low : Int := max (num.log2 - den.log2 - 53 : Int) minExponent
    let exponent :=
      if twoTo 53 * (den * twoTo low.toNat) ≤ num * twoTo (-low).toNat then low + 1 else low
    let rounded := roundScaled num den exponent
    let result : Magnitude :=
      if rounded = twoTo 53 then ⟨twoTo 52, exponent + 1⟩ else ⟨rounded, exponent⟩
    if result.exponent > maxExponent then none else some result

/-- The rounded product. -/
def mul (x y : Magnitude) : Option Magnitude :=
  ofRatio (x.ratio.1 * y.ratio.1) (x.ratio.2 * y.ratio.2)

/-- The rounded quotient by a number other than zero. -/
def div (x y : Magnitude) : Option Magnitude :=
  ofRatio (x.ratio.1 * y.ratio.2) (x.ratio.2 * y.ratio.1)

/-- The rounded power of ten. -/
def powerOfTen (e : Nat) : Option Magnitude :=
  ofRatio (tenTo e) 1

/-- Scales by a power of ten, which is rounded before it is applied. Far below one it is applied in
steps of `10 ^ 308`, the largest that the format holds. -/
def scale (x : Magnitude) (e : Int) : Option Magnitude := do
  if e.natAbs ≤ 308 then
    let power ← powerOfTen e.natAbs
    if 0 ≤ e then x.mul power else x.div power
  else if x.significand = 0 then some x
  else if _h : 0 ≤ e then none
  else
    let power ← powerOfTen 308
    let smaller ← x.div power
    scale smaller (e + 308)
termination_by e.natAbs

/-! ### Shortest digits -/

/-- The position of the decimal point: `10 ^ (p - 1) ≤ num / den < 10 ^ p`. -/
def pointPosition (num den : Nat) : Int :=
  if den ≤ num then (Nat.toDigits 10 (num / den)).length
  else
    let zeros := (List.range 400).find? fun j => den ≤ num * tenTo (j + 1)
    Int.negOfNat (zeros.getD 0)

/-- A decimal `digits · 10 ^ exponent`. -/
structure Decimal where
  digits : Nat
  exponent : Int
  deriving DecidableEq, Repr

/-- The ends of the interval of reals that round to a magnitude, and the magnitude itself, in
quarters of its last place. -/
def quarters (x : Magnitude) : Nat × Nat × Nat :=
  let middle := 4 * x.significand
  let below := if x.significand = twoTo 52 ∧ x.exponent > minExponent then 1 else 2
  (middle - below, middle, middle + 2)

/-- The decimal grid with `count` digits has a point that rounds to `x`: the nearer of the two
neighbours of `x` on it, the even one in a tie. -/
def onGrid (x : Magnitude) (count : Nat) : Option Decimal :=
  let (num, den) := x.ratio
  let e : Int := pointPosition num den - count
  let (low, middle, high) := x.quarters
  -- Both sides as natural numbers: a grid point is `d · tens`, a number of quarters is `k · twos`.
  let twos := twoTo (x.exponent - 2).toNat * tenTo (-e).toNat
  let tens := twoTo (2 - x.exponent).toNat * tenTo e.toNat
  let down := middle * twos / tens
  let up := down + 1
  let even := x.significand % 2 == 0
  let fits (d : Nat) : Bool :=
    if even then low * twos ≤ d * tens && d * tens ≤ high * twos
    else low * twos < d * tens && d * tens < high * twos
  let toDown := middle * twos - down * tens
  let toUp := up * tens - middle * twos
  if fits down && fits up then
    some ⟨if toDown < toUp || (toDown == toUp && down % 2 == 0) then down else up, e⟩
  else if fits down then some ⟨down, e⟩
  else if fits up then some ⟨up, e⟩
  else none

/-- The fewest digits that read back as `x`. Seventeen always do. -/
def shortest (x : Magnitude) : Decimal :=
  ((List.range 17).findSome? fun n => x.onGrid (n + 1)).getD ⟨0, 0⟩

end Magnitude

end DialogTable.Json
