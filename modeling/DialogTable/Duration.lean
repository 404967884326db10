/-!
# Durations

A duration is a whole number of nanoseconds. Its text takes the largest unit that gives a whole
part, with as many decimals as needed.
-/

namespace DialogTable

/-- A length of time. -/
structure Duration where
  nanoseconds : Nat
  deriving DecidableEq, Repr

namespace Duration

def ofSeconds (n : Nat) : Duration := ⟨n * 1000000000⟩

def ofMilliseconds (n : Nat) : Duration := ⟨n * 1000000⟩

instance : Zero Duration := ⟨⟨0⟩⟩

instance : Add Duration := ⟨fun a b => ⟨a.nanoseconds + b.nanoseconds⟩⟩

instance : LE Duration := ⟨fun a b => a.nanoseconds ≤ b.nanoseconds⟩

instance : LT Duration := ⟨fun a b => a.nanoseconds < b.nanoseconds⟩

instance (a b : Duration) : Decidable (a ≤ b) :=
  inferInstanceAs (Decidable (a.nanoseconds ≤ b.nanoseconds))

instance (a b : Duration) : Decidable (a < b) :=
  inferInstanceAs (Decidable (a.nanoseconds < b.nanoseconds))

instance : Min Duration := minOfLe

/-- The whole seconds of a duration. -/
def seconds (duration : Duration) : Nat :=
  duration.nanoseconds / 1000000000

/-- The nanoseconds beyond the whole seconds. -/
def subseconds (duration : Duration) : Nat :=
  duration.nanoseconds % 1000000000

/-- The units in descending order: how many nanoseconds, how many decimals, and the sign. -/
def units : List (Nat × Nat × String) :=
  [(1000000000, 9, "s"), (1000000, 6, "ms"), (1000, 3, "µs")]

/-- A number of decimals below one, without the zeros at the end. -/
def decimals (places n : Nat) : String :=
  let digits := Nat.toDigits 10 n
  let padded := List.replicate (places - digits.length) '0' ++ digits
  let kept := (padded.reverse.dropWhile (· = '0')).reverse
  if kept = [] then "" else .ofList ('.' :: kept)

/-- The text of a duration. -/
def text (duration : Duration) : String :=
  match units.find? fun unit => unit.1 ≤ duration.nanoseconds with
  | some (size, places, sign) =>
    toString (duration.nanoseconds / size) ++ decimals places (duration.nanoseconds % size) ++ sign
  | none => toString duration.nanoseconds ++ "ns"

/-- The text of a duration that may be missing. -/
def optionText : Option Duration → String
  | none => "None"
  | some duration => s!"Some({duration.text})"

end Duration

end DialogTable
