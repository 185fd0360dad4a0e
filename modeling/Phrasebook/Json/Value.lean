import Phrasebook.Json.Number
import Phrasebook.Fields

/-!
# Json/Value — JSON values

Objects are field lists, so they keep the order of their fields.  Equality is structural: `1` and
`1.0` are different numbers.
-/

namespace Phrasebook

/-- A JSON value. -/
inductive Json where
  | null
  | bool (value : Bool)
  | number (value : Json.Number)
  | string (value : String)
  | array (items : List Json)
  | object (fields : List (String × Json))
  deriving Inhabited

namespace Json

mutual

/-- Whether two values are the same, field order included. -/
def same : Json → Json → Bool
  | null, null => true
  | bool a, bool b => a == b
  | number a, number b => a == b
  | string a, string b => a == b
  | array a, array b => sameItems a b
  | object a, object b => sameFields a b
  | _, _ => false

/-- Whether two lists of values are the same. -/
def sameItems : List Json → List Json → Bool
  | [], [] => true
  | a :: as, b :: bs => same a b && sameItems as bs
  | _, _ => false

/-- Whether two field lists are the same. -/
def sameFields : List (String × Json) → List (String × Json) → Bool
  | [], [] => true
  | (m, a) :: as, (n, b) :: bs => m == n && same a b && sameFields as bs
  | _, _ => false

end

mutual

theorem same_iff : ∀ (a b : Json), same a b = true ↔ a = b
  | null, b => by cases b <;> simp [same]
  | bool a, b => by cases b <;> simp [same]
  | number a, b => by cases b <;> simp [same]
  | string a, b => by cases b <;> simp [same]
  | array a, b => by cases b <;> simp [same, sameItems_iff a]
  | object a, b => by cases b <;> simp [same, sameFields_iff a]

theorem sameItems_iff : ∀ (a b : List Json), sameItems a b = true ↔ a = b
  | [], b => by cases b <;> simp [sameItems]
  | a :: as, b => by cases b <;> simp [sameItems, same_iff a, sameItems_iff as]

theorem sameFields_iff : ∀ (a b : List (String × Json)), sameFields a b = true ↔ a = b
  | [], b => by cases b <;> simp [sameFields]
  | (m, a) :: as, b => by
    rcases b with _ | ⟨⟨n, b⟩, bs⟩
    · simp [sameFields]
    · simp [sameFields, same_iff a, sameFields_iff as]

end

/-- Values can be compared: `same` decides equality. -/
instance : DecidableEq Json := fun a b => decidable_of_iff _ (same_iff a b)

end Json

end Phrasebook
