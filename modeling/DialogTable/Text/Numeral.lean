/-!
# Written integers

An integer is written with one optional sign and then decimal digits, and nothing else. Reading
refuses a value outside the given range. Node numbers are the integers of 64 bits with a sign.
-/

namespace DialogTable.Text

/-- The ten decimal digits. -/
def isDigit (c : Char) : Bool :=
  '0' ≤ c && c ≤ '9'

/-- The value of a run of digits, most significant first. -/
def digitsValue (digits : List Char) : Nat :=
  digits.foldl (fun n c => 10 * n + (c.toNat - '0'.toNat)) 0

/-- Reads a run of at least one digit. -/
def readDigits (text : List Char) : Option Nat :=
  if text ≠ [] ∧ text.all isDigit then some (digitsValue text) else none

/-- Reads a signed integer of any size. -/
def readInteger : List Char → Option Int
  | '-' :: digits => (readDigits digits).map fun n => -(n : Int)
  | '+' :: digits => (readDigits digits).map Int.ofNat
  | digits => (readDigits digits).map Int.ofNat

/-- The range of a signed integer of 64 bits. -/
def InRange64 (n : Int) : Prop :=
  -9223372036854775808 ≤ n ∧ n < 9223372036854775808

instance (n : Int) : Decidable (InRange64 n) :=
  inferInstanceAs (Decidable (_ ∧ _))

/-- Reads a node number. -/
def readNumber (text : List Char) : Option Int :=
  (readInteger text).filter fun n => decide (InRange64 n)

/-- Counts of 64 bits lie below this number. -/
def countLimit : Nat := 18446744073709551616

/-- Reads a count of 64 bits. It may carry a plus sign but no minus sign. -/
def readCount (text : List Char) : Option Nat :=
  (match text with
    | '+' :: digits => readDigits digits
    | digits => readDigits digits).filter (· < countLimit)

/-- The digits of a hexadecimal number, most significant first and padded to a width. -/
def hexDigits (width n : Nat) (digit : Nat → Char) : List Char :=
  match width with
  | 0 => []
  | width + 1 => hexDigits width (n / 16) digit ++ [digit (n % 16)]

/-- A hexadecimal digit in lower case. -/
def hexDigit (n : Nat) : Char :=
  Nat.digitChar (n % 16)

/-- A hexadecimal digit in upper case. -/
def hexDigitUpper (n : Nat) : Char :=
  (Nat.digitChar (n % 16)).toUpper

/-- The value of a hexadecimal digit in either case. -/
def hexValue (c : Char) : Option Nat :=
  if '0' ≤ c ∧ c ≤ '9' then some (c.toNat - '0'.toNat)
  else if 'a' ≤ c ∧ c ≤ 'f' then some (c.toNat - 'a'.toNat + 10)
  else if 'A' ≤ c ∧ c ≤ 'F' then some (c.toNat - 'A'.toNat + 10)
  else none

/-! ### Small facts -/

theorem inRange64_of_readNumber {text : List Char} {n : Int} (h : readNumber text = some n) :
    InRange64 n := by
  simp only [readNumber, Option.filter_eq_some_iff] at h
  exact of_decide_eq_true h.2

theorem length_hexDigits (width n : Nat) (digit : Nat → Char) :
    (hexDigits width n digit).length = width := by
  induction width generalizing n with
  | zero => rfl
  | succ width ih => simp [hexDigits, ih]

end DialogTable.Text
