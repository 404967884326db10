import DialogTable.Http.NameTable
import DialogTable.Text.Blank
import DialogTable.Text.Numeral
import DialogTable.Text.Split

/-!
# Hosts

A host is a name, a number of 32 bits or a number of 128 bits. The long numbers stand between
brackets. A name is decoded and folded first; it is a short number if its last label is one, and
then all labels have to be. Names are read liberally: of the characters that stand for nothing in
ASCII only blanks, controls and characters without a meaning of their own are refused.
-/

namespace DialogTable.Http

/-- Whom a request is sent to. -/
inductive Host
  | name (text : String)
  /-- A number of 32 bits. -/
  | short (number : Nat)
  /-- A number of 128 bits. -/
  | long (number : Nat)
  deriving DecidableEq, Repr

namespace Host

/-- The value of some digits to a base. No digits stand for zero. -/
def readBase (base : Nat) (digits : List Char) : Option Nat :=
  digits.foldlM (fun n c => ((Text.hexValue c).filter (· < base)).map (base * n + ·)) 0

/-! ### Short numbers -/

/-- Reads a label of a short number: hexadecimal behind `0x`, octal behind `0`, or decimal. -/
def readLabel : List Char → Option Nat
  | [] => none
  | '0' :: 'x' :: digits => readBase 16 digits
  | '0' :: c :: digits => readBase 8 (c :: digits)
  | digits => readBase 10 digits

/-- The labels of a name. A full stop at its end adds none. -/
def labels (name : List Char) : List (List Char) :=
  let all := Text.splitAt (· = '.') name
  if all.getLast? = some [] then all.dropLast else all

/-- Whether the last label is a number, well formed or not. -/
def endsInNumber (name : List Char) : Bool :=
  (labels name).getLast?.any fun label =>
    (label ≠ [] && label.all Text.isDigit) || (readLabel label).isSome

/-- The short number of some labels: a byte for each but the last, which fills the rest. -/
def ofLabels? (numbers : List Nat) : Option Nat :=
  match numbers.reverse with
  | [] => none
  | last :: front =>
    if front.length ≤ 3 && front.all (· < 256) && last < Nat.pow 256 (4 - front.length) then
      some (front.foldr (fun byte n => 256 * n + byte) 0 * Nat.pow 256 (4 - front.length) + last)
    else none

/-- Reads a short number. -/
def readShort (name : List Char) : Option Nat :=
  ((labels name).mapM readLabel).bind ofLabels?

/-! ### Long numbers -/

/-- Reads a group of a long number. -/
def readGroup (text : List Char) : Option Nat :=
  if text ≠ [] ∧ text.length ≤ 4 then readBase 16 text else none

/-- Reads a byte in decimals without zeros in front. -/
def readByte (text : List Char) : Option Nat :=
  if text ≠ [] ∧ (text.head? = some '0' → text.length = 1) then
    (readBase 10 text).filter (· < 256)
  else none

/-- Reads four bytes as two groups. -/
def readBytes (text : List Char) : Option (List Nat) :=
  match (Text.splitAt (· = '.') text).mapM readByte with
  | some [a, b, c, d] => some [256 * a + b, 256 * c + d]
  | _ => none

/-- Reads groups between colons. The last of all may be written as four bytes. -/
def readGroups (isLast : Bool) (text : List Char) : Option (List Nat) :=
  if text = [] then some []
  else
    let groups := Text.splitAt (· = ':') text
    let last := groups.getLastD []
    if isLast && '.' ∈ last then do
      return (← groups.dropLast.mapM readGroup) ++ (← readBytes last)
    else groups.mapM readGroup

/-- The texts before and after the first two colons in a row. -/
def splitGap : List Char → Option (List Char × List Char)
  | ':' :: ':' :: rest => some ([], rest)
  | c :: rest => (splitGap rest).map fun split => (c :: split.1, split.2)
  | [] => none

/-- The number of eight groups. -/
def ofGroups (groups : List Nat) : Nat :=
  groups.foldl (fun n group => 65536 * n + group) 0

/-- Reads a long number. Two colons in a row stand for one or more groups of zero. -/
def readLong (text : List Char) : Option Nat :=
  match splitGap text with
  | none => ((readGroups true text).filter (·.length = 8)).map ofGroups
  | some (before, after) => do
    let front ← readGroups false before
    let back ← readGroups true after
    if front.length + back.length < 8 then
      return ofGroups (front ++ List.replicate (8 - front.length - back.length) 0 ++ back)
    else none

/-! ### Names -/

/-- Decodes percent signs with two hexadecimal digits. Others stand for themselves. -/
def decodeBytes : List UInt8 → List UInt8
  | 0x25 :: high :: low :: rest =>
    match Text.hexValue (Char.ofNat high.toNat), Text.hexValue (Char.ofNat low.toNat) with
    | some h, some l => UInt8.ofNat (16 * h + l) :: decodeBytes rest
    | _, _ => 0x25 :: decodeBytes (high :: low :: rest)
  | byte :: rest => byte :: decodeBytes rest
  | [] => []

/-- The text of a name, decoded. -/
def decodeName (text : List Char) : Option (List Char) :=
  let bytes := (String.ofList text).toUTF8.data.toList
  (String.fromUTF8? ⟨(decodeBytes bytes).toArray⟩).map String.toList

/-- Folds a decoded name to the characters that its characters stand for. -/
def foldName (text : List Char) : List Char :=
  text.flatMap NameTable.fold

/-- Code points outside of ASCII that no name holds, as closed ranges: joiners, marks of direction,
private and special ones. -/
def refusedRanges : List (Nat × Nat) :=
  [(0x200C, 0x200F), (0x202A, 0x202E), (0x2061, 0x206F), (0xE000, 0xF8FF), (0xFDD0, 0xFDEF),
    (0xFFF9, 0xFFFF), (0xE0000, 0x10FFFF)]

/-- Whether a folded name may hold a character. -/
def isNameChar (c : Char) : Bool :=
  !Text.isBlank c && !Text.isControl c && c ∉ "%#/:<>?@[\\]^|\x60\x7b\x7d".toList &&
    !refusedRanges.any fun range => range.1 ≤ c.toNat && c.toNat ≤ range.2

/-- Reads a name, or the short number that it is. -/
def readName (text : List Char) : Option Host :=
  match (decodeName text).map foldName with
  | none | some [] => none
  | some folded =>
    if !folded.all isNameChar then none
    else if endsInNumber folded then (readShort folded).map short
    else some (name (.ofList folded))

/-- Reads a host. -/
def read (text : List Char) : Option Host :=
  match text with
  | '[' :: rest => if rest.getLast? = some ']' then (readLong rest.dropLast).map long else none
  | _ => readName text

end Host

end DialogTable.Http
