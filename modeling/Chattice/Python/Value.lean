import Chattice.Json

/-!
# Python values on their way into a JSON document

* `PyValue` : what a caller may put in a dictionary: values as `json.loads` builds them, and others;
* `update` : `dict.update` on the items of a dictionary in insertion order.
-/

namespace Chattice

/-- A Python value: one that `json.loads` could have built, an enum member, a mapping, a list or tuple,
or an object of another type. A key of a mapping is given by its `str`. -/
inductive PyValue where
  | json (value : Json)
  | enum (value : PyValue)
  | mapping (items : List (String × PyValue))
  | sequence (items : List PyValue)
  | other (typeName : String)

structure TypeError where
  message : String
  deriving DecidableEq, Repr

namespace PyValue

abbrev Fields := List (String × PyValue)

def ofJson (fields : Json.Fields) : Fields := fields.map fun field => (field.1, .json field.2)

/-- `mapping[key] = value` -/
def set (fields : Fields) (key : String) (value : PyValue) : Fields :=
  match fields with
  | [] => [(key, value)]
  | (k, v) :: rest => if k = key then (k, value) :: rest else (k, v) :: set rest key value

/-- `fields.update(items)` -/
def update (fields items : Fields) : Fields :=
  items.foldl (fun fields item => set fields item.1 item.2) fields

theorem set_ofJson (fields : Json.Fields) (key : String) (value : Json) :
    set (ofJson fields) key (.json value) = ofJson (Json.set fields key value) := by
  induction fields with
  | nil => rfl
  | cons field fields ih =>
    obtain ⟨k, v⟩ := field
    by_cases hk : k = key
    · rw [Json.set, if_pos hk]
      exact if_pos hk
    · rw [Json.set, if_neg hk]
      refine (if_neg hk).trans ?_
      exact congrArg ((k, .json v) :: ·) ih

theorem update_ofJson (fields items : Json.Fields) :
    update (ofJson fields) (ofJson items) = ofJson (Json.update fields items) := by
  induction items generalizing fields with
  | nil => rfl
  | cons item items ih =>
    show update (set (ofJson fields) item.1 (.json item.2)) (ofJson items) = _
    rw [set_ofJson, ih]
    rfl

end PyValue

end Chattice
