import DialogTable.Json.Binary64
import DialogTable.Text.Numeral

/-!
# Numbers in JSON

A numeral is read by the grammar of JSON and keeps its digits. It stands for an integer if it has
neither fraction nor exponent and fits 64 bits with or without a sign; any other stands for a
binary64 number, and so does minus zero. A number is printed with the fewest digits that read back.
-/

namespace DialogTable.Json

/-- A number as it is written. -/
structure Numeral where
  negative : Bool
  /-- The digits before the point. -/
  whole : List Char
  /-- The digits behind the point, if there is one. -/
  fraction : Option (List Char)
  /-- The sign and the digits of the exponent, if there is one. -/
  exponent : Option (Bool × List Char)
  deriving DecidableEq, Repr

/-- A number that a numeral stands for. -/
inductive Number
  | int (value : Int)
  | float (value : Binary64)
  deriving DecidableEq, Repr

namespace Numeral

/-- A run of digits that a number may start with: no zero stands in front of others. -/
def isWhole : List Char → Bool
  | [] => false
  | ['0'] => true
  | c :: rest => c != '0' && (c :: rest).all Text.isDigit

/-- Reads the digits of an exponent with an optional sign. -/
def readExponent : List Char → Option (Bool × List Char)
  | '+' :: digits => if digits ≠ [] ∧ digits.all Text.isDigit then some (false, digits) else none
  | '-' :: digits => if digits ≠ [] ∧ digits.all Text.isDigit then some (true, digits) else none
  | digits => if digits ≠ [] ∧ digits.all Text.isDigit then some (false, digits) else none

/-- Reads what follows the sign. -/
def readUnsigned (negative : Bool) (text : List Char) : Option Numeral := do
  let isMark (c : Char) : Bool := c = 'e' || c = 'E'
  let body := text.takeWhile fun c => !isMark c
  let exponent ← match text.dropWhile fun c => !isMark c with
    | [] => some none
    | _ :: rest => (readExponent rest).map some
  let whole := body.takeWhile (· ≠ '.')
  let fraction ← match body.dropWhile (· ≠ '.') with
    | [] => some none
    | _ :: digits => if digits ≠ [] ∧ digits.all Text.isDigit then some (some digits) else none
  if isWhole whole then some { negative, whole, fraction, exponent } else none

/-- Reads a numeral. -/
def read : List Char → Option Numeral
  | '-' :: rest => readUnsigned true rest
  | text => readUnsigned false text

/-- The leading digits that fit 64 bits, and the later ones. A digit that does not fit ends the
significand for good. -/
def takeDigits (significand : Nat) : List Char → Nat × List Char
  | [] => (significand, [])
  | c :: rest =>
    let more := 10 * significand + Text.digitsValue [c]
    if more < Text.countLimit then takeDigits more rest else (significand, c :: rest)

/-- The significand of at most 64 bits, and the power of ten that the digits give it. Digits before
the point that do not fit count as zeros, those behind it are dropped. -/
def significand (numeral : Numeral) : Nat × Int :=
  let (whole, dropped) := takeDigits 0 numeral.whole
  let fraction := numeral.fraction.getD []
  let (all, rest) := takeDigits whole fraction
  (all, (dropped.length : Int) - ((fraction.length : Int) - rest.length))

/-- The written exponent. -/
def writtenExponent (numeral : Numeral) : Int :=
  match numeral.exponent with
  | none => 0
  | some (negative, digits) =>
    let value : Int := Text.digitsValue digits
    if negative then -value else value

/-- The largest exponent that is computed with; a larger one is zero or too large outright. -/
def exponentLimit : Int := 2147483648

/-- The magnitude of a number that is no integer. -/
def magnitude (numeral : Numeral) : Option Magnitude :=
  let (digits, shift) := numeral.significand
  let written := numeral.writtenExponent
  if exponentLimit ≤ written then if digits = 0 then some Magnitude.zero else none
  else if written ≤ -exponentLimit then some Magnitude.zero
  else (Magnitude.ofRatio digits 1).bind fun x => x.scale (shift + written)

/-- The number that a numeral stands for, or none if it is too large. -/
def value (numeral : Numeral) : Option Number :=
  let n : Int := Text.digitsValue numeral.whole
  if numeral.fraction = none ∧ numeral.exponent = none ∧
      (if numeral.negative then 0 < n ∧ Text.InRange64 (-n) else n < Text.countLimit) then
    some (.int (if numeral.negative then -n else n))
  else
    numeral.magnitude.map fun magnitude => .float { negative := numeral.negative, magnitude }

end Numeral

/-- Positional notation is used while the decimal point lies in this range, counted from the first
digit; the lower end is left out. -/
def positionalRange : Int × Int := (-5, 16)

/-- Writes decimal digits with the point at a position. An integral value keeps a zero behind the
point, and the exponent of scientific notation always has a sign. -/
def writeDecimal (digits : List Char) (point : Int) : List Char :=
  let count : Int := digits.length
  if count ≤ point ∧ point ≤ positionalRange.2 then
    digits ++ List.replicate (point - count).toNat '0' ++ ['.', '0']
  else if 0 < point ∧ point ≤ positionalRange.2 then
    digits.take point.toNat ++ '.' :: digits.drop point.toNat
  else if positionalRange.1 < point ∧ point ≤ 0 then
    '0' :: '.' :: List.replicate (-point).toNat '0' ++ digits
  else
    digits.take 1 ++ (if digits.length = 1 then [] else '.' :: digits.drop 1)
      ++ 'e' :: (if 0 < point then ['+'] else []) ++ (toString (point - 1)).toList

namespace Binary64

/-- Prints a binary64 number. -/
def print (x : Binary64) : String :=
  let sign : List Char := if x.negative then ['-'] else []
  if x.magnitude.significand = 0 then .ofList (sign ++ ['0', '.', '0'])
  else
    let decimal := x.magnitude.shortest
    let all := Nat.toDigits 10 decimal.digits
    let digits := (all.reverse.dropWhile (· = '0')).reverse
    .ofList (sign ++ writeDecimal digits (all.length + decimal.exponent))

end Binary64

namespace Number

/-- Prints a number. -/
def print : Number → String
  | int n => toString n
  | float x => x.print

/-- The value of an integer within 64 bits with a sign. -/
def toInt64? : Number → Option Int
  | int n => if Text.InRange64 n then some n else none
  | float _ => none

end Number

end DialogTable.Json
