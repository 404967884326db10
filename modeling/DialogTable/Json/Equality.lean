import DialogTable.Json

/-!
# Equality of JSON values

Values are compared part by part, so that equality of two values can be decided.
-/

namespace DialogTable.Json

mutual

/-- Whether two values are the same. -/
def same : Json → Json → Bool
  | .null, .null => true
  | .bool a, .bool b => a = b
  | .number a, .number b => a = b
  | .string a, .string b => a = b
  | .array a, .array b => sameItems a b
  | .object a, .object b => sameMembers a b
  | _, _ => false

/-- Whether two arrays have the same items. -/
def sameItems : List Json → List Json → Bool
  | [], [] => true
  | a :: restA, b :: restB => same a b && sameItems restA restB
  | _, _ => false

/-- Whether two objects have the same members. -/
def sameMembers : List (String × Json) → List (String × Json) → Bool
  | [], [] => true
  | (key, a) :: restA, (other, b) :: restB => key = other && same a b && sameMembers restA restB
  | _, _ => false

end

mutual

theorem same_iff : ∀ {a b : Json}, same a b = true ↔ a = b
  | .null, b => by cases b <;> simp [same]
  | .bool _, b => by cases b <;> simp [same]
  | .number _, b => by cases b <;> simp [same]
  | .string _, b => by cases b <;> simp [same]
  | .array _, b => by
    cases b with
    | array _ => simp [same, sameItems_iff]
    | _ => simp [same]
  | .object _, b => by
    cases b with
    | object _ => simp [same, sameMembers_iff]
    | _ => simp [same]

theorem sameItems_iff : ∀ {a b : List Json}, sameItems a b = true ↔ a = b
  | [], b => by cases b <;> simp [sameItems]
  | _ :: _, b => by
    cases b with
    | nil => simp [sameItems]
    | cons _ _ => simp [sameItems, same_iff, sameItems_iff]

theorem sameMembers_iff : ∀ {a b : List (String × Json)}, sameMembers a b = true ↔ a = b
  | [], b => by cases b <;> simp [sameMembers]
  | (_, _) :: _, b => by
    cases b with
    | nil => simp [sameMembers]
    | cons _ _ => simp [sameMembers, same_iff, sameMembers_iff, Prod.ext_iff, and_assoc]

end

instance : DecidableEq Json := fun _ _ => decidable_of_iff _ same_iff

end DialogTable.Json
