import Phrasebook.Json.Value
import Phrasebook.Proofs.Fields

/-!
# Proofs/Json/Values — the shape of a value and the numbers in it

`Fits` is what every value that was read satisfies and every value that is to be read again needs.
The numbers of a value are looked at apart from its shape: `numbers` lists them and `mapNumbers`
exchanges them.
-/

namespace Phrasebook.Json

mutual

/-- The value nests less than `depth` deep and names no field of an object twice. -/
def Fits : Nat → Json → Prop
  | _, null => True
  | _, bool _ => True
  | _, number _ => True
  | _, string _ => True
  | depth, array items => 1 < depth ∧ FitItems (depth - 1) items
  | depth, object fields => 1 < depth ∧ (Fields.names fields).Nodup ∧ FitFields (depth - 1) fields

/-- All items fit. -/
def FitItems : Nat → List Json → Prop
  | _, [] => True
  | depth, item :: rest => Fits depth item ∧ FitItems depth rest

/-- The values of all fields fit. -/
def FitFields : Nat → List (String × Json) → Prop
  | _, [] => True
  | depth, (_, item) :: rest => Fits depth item ∧ FitFields depth rest

end

mutual

/-- The numbers of a value. -/
def numbers : Json → List Number
  | number n => [n]
  | array items => numbersOfItems items
  | object fields => numbersOfFields fields
  | _ => []

/-- The numbers of the items of a list. -/
def numbersOfItems : List Json → List Number
  | [] => []
  | item :: rest => numbers item ++ numbersOfItems rest

/-- The numbers of the fields of an object. -/
def numbersOfFields : List (String × Json) → List Number
  | [] => []
  | (_, item) :: rest => numbers item ++ numbersOfFields rest

end

mutual

/-- The value with other numbers. -/
def mapNumbers (f : Number → Number) : Json → Json
  | null => null
  | bool value => bool value
  | number n => number (f n)
  | string text => string text
  | array items => array (mapItems f items)
  | object fields => object (mapFields f fields)

/-- The items with other numbers. -/
def mapItems (f : Number → Number) : List Json → List Json
  | [] => []
  | item :: rest => mapNumbers f item :: mapItems f rest

/-- The fields with other numbers. -/
def mapFields (f : Number → Number) : List (String × Json) → List (String × Json)
  | [] => []
  | (name, item) :: rest => (name, mapNumbers f item) :: mapFields f rest

end

section

variable {f : Number → Number} {p : Number → Prop} {depth : Nat} {n : Number}
  {fields : List (String × Json)}

theorem fitFields_iff : FitFields depth fields ↔ ∀ field ∈ fields, Fits depth field.2 := by
  induction fields with
  | nil => simp [FitFields]
  | cons field fields ih => simp [FitFields, ih]

theorem mem_numbersOfFields :
    n ∈ numbersOfFields fields ↔ ∃ field ∈ fields, n ∈ field.2.numbers := by
  induction fields with
  | nil => simp [numbersOfFields]
  | cons field fields ih => simp [numbersOfFields, ih]

theorem mapFields_eq_map :
    mapFields f fields = fields.map fun field => (field.1, field.2.mapNumbers f) := by
  induction fields with
  | nil => rfl
  | cons field fields ih => rw [mapFields, ih, List.map_cons]

end

mutual

/-- A value whose numbers stay is the same value. -/
theorem mapNumbers_id : ∀ v : Json, v.mapNumbers id = v
  | null => rfl
  | bool _ => rfl
  | number _ => rfl
  | string _ => rfl
  | array items => by rw [mapNumbers, mapItems_id items]
  | object fields => by rw [mapNumbers, mapFields_id fields]

theorem mapItems_id : ∀ items : List Json, mapItems id items = items
  | [] => rfl
  | item :: rest => by rw [mapItems, mapNumbers_id item, mapItems_id rest]

theorem mapFields_id : ∀ fields : List (String × Json), mapFields id fields = fields
  | [] => rfl
  | (name, item) :: rest => by rw [mapFields, mapNumbers_id item, mapFields_id rest]

end

end Phrasebook.Json
