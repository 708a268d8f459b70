import Mathlib.Data.List.Basic

/-!
# JSON values

The objects `json.loads` builds, with the operations of Python on them. A dictionary is the list of
its items in insertion order; a float is the rational number it stands for.
-/

namespace Chattice

inductive Json where
  | null
  | bool (b : Bool)
  | int (n : Int)
  | float (q : Rat)
  | str (s : String)
  | list (items : List Json)
  | dict (fields : List (String × Json))
  deriving Inhabited, Repr

namespace Json

abbrev Fields := List (String × Json)

/-- `mapping.get(key)`; `None` for a missing key. -/
def get (fields : Fields) (key : String) : Json :=
  (fields.lookup key).getD .null

/-- `mapping[key] = value` -/
def set (fields : Fields) (key : String) (value : Json) : Fields :=
  match fields with
  | [] => [(key, value)]
  | (k, v) :: rest => if k = key then (k, value) :: rest else (k, v) :: set rest key value

/-- `fields.update(items)` -/
def update (fields items : Fields) : Fields :=
  items.foldl (fun fields item => set fields item.1 item.2) fields

theorem lookup_cons_ite (k key : String) (value : Json) (fields : Fields) :
    ((key, value) :: fields).lookup k = if k = key then some value else fields.lookup k := by
  by_cases hk : k = key
  · simp [hk]
  · rw [List.lookup_cons, beq_eq_false_iff_ne.mpr hk, if_neg hk]

theorem lookup_set (fields : Fields) (key : String) (value : Json) (k : String) :
    (set fields key value).lookup k = if k = key then some value else fields.lookup k := by
  induction fields with
  | nil => rw [set, lookup_cons_ite]
  | cons item rest ih =>
    obtain ⟨first, v⟩ := item
    by_cases hfirst : first = key
    · rw [set, if_pos hfirst, lookup_cons_ite, lookup_cons_ite, hfirst]
      split <;> rfl
    · rw [set, if_neg hfirst, lookup_cons_ite, ih, lookup_cons_ite]
      by_cases hk : k = first
      · rw [if_pos hk, if_neg fun hkey => hfirst (hk ▸ hkey), if_pos hk]
      · rw [if_neg hk, if_neg hk]

@[simp]
theorem lookup_set_self (fields : Fields) (key : String) (value : Json) :
    (set fields key value).lookup key = some value := by
  rw [lookup_set, if_pos rfl]

theorem lookup_set_of_ne (fields : Fields) {key k : String} (value : Json) (hk : k ≠ key) :
    (set fields key value).lookup k = fields.lookup k := by
  rw [lookup_set, if_neg hk]

theorem set_of_not_mem {fields : Fields} {key : String} (value : Json)
    (h : key ∉ fields.map Prod.fst) : set fields key value = fields ++ [(key, value)] := by
  induction fields with
  | nil => rfl
  | cons item rest ih =>
    rw [List.map_cons, List.mem_cons, not_or] at h
    rw [set, if_neg (Ne.symm h.1), ih h.2, List.cons_append]

theorem keys_set (fields : Fields) (key : String) (value : Json) :
    (set fields key value).map Prod.fst =
      if key ∈ fields.map Prod.fst then fields.map Prod.fst else fields.map Prod.fst ++ [key] := by
  induction fields with
  | nil => rfl
  | cons item rest ih =>
    obtain ⟨first, v⟩ := item
    by_cases hfirst : first = key
    · simp [set, hfirst]
    · rw [set, if_neg hfirst, List.map_cons, ih]
      simp only [List.map_cons, List.mem_cons, Ne.symm hfirst, false_or]
      split <;> rfl

theorem nodup_set {fields : Fields} (key : String) (value : Json)
    (h : (fields.map Prod.fst).Nodup) : ((set fields key value).map Prod.fst).Nodup := by
  rw [keys_set]
  split
  · exact h
  · next hnew =>
    refine List.nodup_append.mpr ⟨h, List.nodup_cons.mpr ⟨List.not_mem_nil, List.nodup_nil⟩, ?_⟩
    rintro k hk k' hk' rfl
    rw [List.mem_singleton] at hk'
    exact hnew (hk' ▸ hk)

theorem nodup_update {fields : Fields} (items : Fields) (h : (fields.map Prod.fst).Nodup) :
    ((update fields items).map Prod.fst).Nodup := by
  induction items generalizing fields with
  | nil => exact h
  | cons item items ih => exact ih (nodup_set item.1 item.2 h)

theorem update_of_nodup {fields items : Fields} (h : ((fields ++ items).map Prod.fst).Nodup) :
    update fields items = fields ++ items := by
  induction items generalizing fields with
  | nil => exact (List.append_nil _).symm
  | cons item items ih =>
    have hassoc : fields ++ item :: items = (fields ++ [item]) ++ items := by simp
    have hnew : item.1 ∉ fields.map Prod.fst := by
      rw [List.map_append, List.map_cons] at h
      intro hmem
      exact (List.nodup_append.mp h).2.2 _ hmem _ List.mem_cons_self rfl
    rw [hassoc] at h ⊢
    show update (set fields item.1 item.2) items = _
    rw [set_of_not_mem item.2 hnew]
    exact ih h

/-- `mapping.pop(key, None)` -/
def pop (fields : Fields) (key : String) : Fields := fields.filter fun (k, _) => k ≠ key

/-- `bool(value)` -/
def truthy : Json → Bool
  | .null => false
  | .bool b => b
  | .int n => n != 0
  | .float q => q != 0
  | .str s => s != ""
  | .list items => !items.isEmpty
  | .dict fields => !fields.isEmpty

/-- A number as Python compares it: `True` is 1. -/
def number : Json → Option Rat
  | .bool b => some (if b then 1 else 0)
  | .int n => some n
  | .float q => some q
  | _ => none

mutual

/-- `a == b`: numbers by value, lists item by item, dictionaries whatever their order. -/
def pyEq : Json → Json → Bool
  | .null, b =>
    match b with
    | .null => true
    | _ => false
  | .str s, b =>
    match b with
    | .str s' => s == s'
    | _ => false
  | .list items, b =>
    match b with
    | .list items' => pyEqItems items items'
    | _ => false
  | .dict fields, b =>
    match b with
    | .dict fields' => fields.length == fields'.length && pyEqFields fields fields'
    | _ => false
  | .bool x, b => b.number == some (if x then 1 else 0)
  | .int n, b => b.number == some (n : Rat)
  | .float q, b => b.number == some q
termination_by structural a => a

def pyEqItems : List Json → List Json → Bool
  | [], items' => items'.isEmpty
  | a :: items, items' =>
    match items' with
    | b :: items' => pyEq a b && pyEqItems items items'
    | [] => false
termination_by structural items => items

def pyEqFields : List (String × Json) → List (String × Json) → Bool
  | [], _ => true
  | item :: fields, fields' => pyEqItem item fields' && pyEqFields fields fields'
termination_by structural fields => fields

def pyEqItem : String × Json → List (String × Json) → Bool
  | (key, value), fields' =>
    match fields'.lookup key with
    | some value' => pyEq value value'
    | none => false
termination_by structural item => item

end

end Json

end Chattice
