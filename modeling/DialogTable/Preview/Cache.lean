import DialogTable.Preview.Fingerprint
import Std.Data.HashMap

/-!
# A cache of previews

The cache holds one value for a fingerprint. Whoever asks for a missing value can have it made and
kept.
-/

namespace DialogTable.Preview

/-- Values by fingerprint. -/
structure Cache (α : Type) where
  entries : Std.HashMap Fingerprint α := ∅

namespace Cache

variable {α : Type}

/-- The value of a key. -/
def get? (cache : Cache α) (key : Fingerprint) : Option α :=
  cache.entries[key]?

/-- Whether a key has a value. -/
def contains (cache : Cache α) (key : Fingerprint) : Bool :=
  cache.entries.contains key

/-- The number of keys. -/
def size (cache : Cache α) : Nat :=
  cache.entries.size

/-- Sets the value of a key. The value it had before comes with the cache. -/
def insert (cache : Cache α) (key : Fingerprint) (value : α) : Option α × Cache α :=
  (cache.get? key, { entries := cache.entries.insert key value })

/-- Removes a key. The value it had comes with the cache. -/
def erase (cache : Cache α) (key : Fingerprint) : Option α × Cache α :=
  (cache.get? key, { entries := cache.entries.erase key })

/-- The value of a key, which is made and kept if there is none. -/
def getOrInsert (cache : Cache α) (key : Fingerprint) (make : Unit → α) : α × Cache α :=
  match cache.get? key with
  | some value => (value, cache)
  | none =>
    let value := make ()
    (value, { entries := cache.entries.insert key value })

end Cache

end DialogTable.Preview
