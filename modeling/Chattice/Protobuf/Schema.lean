import Chattice.Protobuf.Message
import Mathlib.Algebra.Group.Int.Defs
import Std.Data.String.ToInt

/-!
# Reading messages by a schema

A schema gives the fields of every message type. The reader of the JSON mapping finds a field by its
JSON name or by its own name, ignores the keys it does not know, and takes `null` for unset.

* `readMessage` : the message of a dictionary;
* `conforms` : a message has fields of its type, each set once, with values other than the default;
* `readMessage_toDict` : such a message is read back from its JSON.
-/

namespace Chattice.Protobuf

inductive ScalarKind where
  | text
  | bool
  | int
  | int64
  | float
  | floatValue
  /-- The names of the enumerators; the first one has the number 0. -/
  | enum (names : List String)
  deriving DecidableEq, Repr

inductive FieldKind where
  | scalar (kind : ScalarKind)
  | message (type : String)
  deriving DecidableEq, Repr

structure Field where
  name : String
  kind : FieldKind
  isRepeated : Bool
  deriving DecidableEq, Repr

abbrev Schema := List (String × List Field)

def Schema.fields (schema : Schema) (type : String) : List Field := (schema.lookup type).getD []

/-- The field of a key: its JSON name comes before its own. -/
def findField (fields : List Field) (key : String) : Option Field :=
  (fields.find? fun f => jsonName f.name == key).or (fields.find? fun f => f.name == key)

def readScalar : ScalarKind → Json → Option Scalar
  | .text, .str s => some (.text s)
  | .bool, .bool b => some (.bool b)
  | .int, .int n => some (.int n)
  | .int64, .str s => s.toInt?.map .int64
  | .float, .float q => some (.float q)
  | .floatValue, .float q => some (.floatValue q)
  | .enum names, .str name => if name ∈ names then some (.enumerator name) else none
  | _, _ => none

/-- The value a scalar field has when it is unset; a `FloatValue` is set with every number. -/
def isDefault : ScalarKind → Scalar → Bool
  | .text, .text s => s == ""
  | .bool, .bool b => !b
  | .int, .int n => n == 0
  | .int64, .int64 n => n == 0
  | .float, .float q => q == 0
  | .enum names, .enumerator name => names.head? == some name
  | _, _ => false

/-- A field with a value; a default scalar leaves it unset. -/
def setField (field : Field) (value : Value) (rest : Message) : Message :=
  match field.kind, value with
  | .scalar kind, .scalar s => if isDefault kind s then rest else (field.name, value) :: rest
  | _, _ => (field.name, value) :: rest

section Reader

variable (schema : Schema)

mutual

def readItem (kind : FieldKind) : Json → Option Value
  | .dict entries =>
    match kind with
    | .message type => (readFields (schema.fields type) entries).map .message
    | .scalar _ => none
  | json => match kind with
    | .scalar kind => (readScalar kind json).map .scalar
    | .message _ => none
termination_by structural json => json

def readFields (fields : List Field) : List (String × Json) → Option Message
  | [] => some []
  | (key, value) :: rest =>
    match findField fields key, value with
    | none, _ => readFields fields rest
    | some _, .null => readFields fields rest
    | some field, .list items =>
      if field.isRepeated then do
        let values ← readItems field.kind items
        let others ← readFields fields rest
        return if values.isEmpty then others else (field.name, .repeated values) :: others
      else none
    | some field, value =>
      if field.isRepeated then none
      else do
        let item ← readItem field.kind value
        let others ← readFields fields rest
        return setField field item others
termination_by structural entries => entries

def readItems (kind : FieldKind) : List Json → Option (List Value)
  | [] => some []
  | item :: items => do return (← readItem kind item) :: (← readItems kind items)
termination_by structural items => items

end

/-- `ParseDict(data, Type(), ignore_unknown_fields=True)` -/
def readMessage (type : String) (data : Json.Fields) : Option Message :=
  readFields schema (schema.fields type) data

end Reader

/-! ## Messages of a schema -/

/-- A scalar of the kind: numbers in range, enumerators by their names. -/
def scalarFits : ScalarKind → Scalar → Bool
  | .text, .text _ => true
  | .bool, .bool _ => true
  | .int, .int n => -2 ^ 31 ≤ n && n < 2 ^ 31
  | .int64, .int64 n => -2 ^ 63 ≤ n && n < 2 ^ 63
  | .float, .float _ => true
  | .floatValue, .floatValue _ => true
  | .enum names, .enumerator name => names.contains name
  | _, _ => false

/-- No scalar has the default value of the field. -/
def isSet : FieldKind → Value → Bool
  | .scalar kind, .scalar s => !isDefault kind s
  | _, _ => true

section Conforms

variable (schema : Schema)

mutual

def conformsItem (kind : FieldKind) : Value → Bool
  | .scalar s =>
    match kind with
    | .scalar kind => scalarFits kind s
    | .message _ => false
  | .message entries =>
    match kind with
    | .message type => conformsFields (schema.fields type) entries
    | .scalar _ => false
  | .repeated _ => false
termination_by structural value => value

def conformsFields (fields : List Field) : List (String × Value) → Bool
  | [] => true
  | (name, value) :: rest =>
    (match fields.find? fun f => f.name == name, value with
    | none, _ => false
    | some field, .repeated items =>
      field.isRepeated && !items.isEmpty && conformsItems field.kind items
    | some field, value =>
      !field.isRepeated && isSet field.kind value && conformsItem field.kind value) &&
    (rest.lookup name).isNone && conformsFields fields rest
termination_by structural entries => entries

def conformsItems (kind : FieldKind) : List Value → Bool
  | [] => true
  | item :: items => conformsItem kind item && conformsItems kind items
termination_by structural items => items

end

/-- The fields of the message are fields of its type, each set once. -/
def conforms (type : String) (m : Message) : Bool := conformsFields schema (schema.fields type) m

end Conforms

/-! ## Reading back -/

/-- The fields of a type have different JSON names. -/
def Schema.Distinct (schema : Schema) : Prop :=
  ∀ type, ((schema.fields type).map fun f => jsonName f.name).Nodup

theorem Schema.fields_eq (schema : Schema) (type : String) :
    schema.fields type = [] ∨ (type, schema.fields type) ∈ schema := by
  unfold fields
  cases hfields : schema.lookup type with
  | none => exact .inl rfl
  | some found =>
    obtain ⟨before, after, rfl, -⟩ := List.lookup_eq_some_iff.mp hfields
    exact .inr (List.mem_append_right before List.mem_cons_self)

theorem findField_jsonName {fields : List Field} (h : (fields.map fun f => jsonName f.name).Nodup)
    {name : String} {field : Field} (hfield : fields.find? (fun f => f.name == name) = some field) :
    findField fields (jsonName name) = some field := by
  have hfind : fields.find? (fun f => jsonName f.name == jsonName name) = some field := by
    induction fields with
    | nil => cases hfield
    | cons f rest ih =>
      rw [List.map_cons, List.nodup_cons] at h
      rw [List.find?_cons] at hfield ⊢
      by_cases hname : f.name = name
      · rw [beq_iff_eq.mpr hname] at hfield
        rw [beq_iff_eq.mpr (congrArg jsonName hname)]
        exact hfield
      · rw [beq_eq_false_iff_ne.mpr hname] at hfield
        have hfieldName : field.name = name := by simpa using List.find?_some hfield
        have hne : jsonName f.name ≠ jsonName name := by
          intro heq
          rw [heq, ← hfieldName] at h
          exact h.1 (List.mem_map_of_mem (List.mem_of_find?_eq_some hfield))
        rw [beq_eq_false_iff_ne.mpr hne]
        exact ih h.2 hfield
  rw [findField, hfind]
  rfl

theorem readScalar_toJson {kind : ScalarKind} {s : Scalar} (h : scalarFits kind s = true) :
    readScalar kind s.toJson = some s := by
  cases kind <;> cases s <;> first | cases h | skip
  case text => rfl
  case bool => rfl
  case int => rfl
  case float => rfl
  case floatValue => rfl
  case int64.int64 n => rw [Scalar.toJson, readScalar, Int.toString_eq_repr, Int.toInt?_repr, Option.map_some]
  case enum.enumerator names name =>
    have hmem : name ∈ names := List.contains_iff_mem.mp h
    rw [Scalar.toJson, readScalar, if_pos hmem]

theorem readItem_scalar {schema : Schema} {kind : ScalarKind} {s : Scalar}
    (h : scalarFits kind s = true) : readItem schema (.scalar kind) s.toJson = some (.scalar s) := by
  have hread := readScalar_toJson h
  cases s <;> (simp only [Scalar.toJson] at hread ⊢; rw [readItem, hread, Option.map_some]) <;> nofun

theorem setField_of_isSet {field : Field} {value : Value} {rest : Message}
    (h : isSet field.kind value = true) : setField field value rest = (field.name, value) :: rest := by
  unfold setField
  split
  · next kind s hkind =>
    rw [hkind, isSet, Bool.not_eq_true'] at h
    rw [h]
    rfl
  · rfl

def FitsField (schema : Schema) (field : Field) : Value → Prop
  | .repeated items => field.isRepeated = true ∧ items.isEmpty = false ∧
      conformsItems schema field.kind items = true
  | value => field.isRepeated = false ∧ isSet field.kind value = true ∧
      conformsItem schema field.kind value = true

theorem conformsFields_cons {schema : Schema} {fields : List Field} {name : String} {value : Value}
    {rest : Message} (h : conformsFields schema fields ((name, value) :: rest) = true) :
    ∃ field, fields.find? (fun f => f.name == name) = some field ∧
      conformsFields schema fields rest = true ∧ FitsField schema field value := by
  rw [conformsFields.eq_def] at h
  simp only [Bool.and_eq_true] at h
  obtain ⟨⟨hentry, -⟩, hrest⟩ := h
  cases hfind : fields.find? (fun f => f.name == name) with
  | none =>
    rw [hfind] at hentry
    cases hentry
  | some field =>
    rw [hfind] at hentry
    refine ⟨field, rfl, hrest, ?_⟩
    cases value <;>
    · simp only [Bool.and_eq_true, Bool.not_eq_true'] at hentry
      exact ⟨hentry.1.1, hentry.1.2, hentry.2⟩

theorem readFields_cons_item {schema : Schema} {fields : List Field} {key : String} {field : Field}
    (hfound : findField fields key = some field) (hsingle : field.isRepeated = false) {json : Json}
    {value : Value} (hvalue : readItem schema field.kind json = some value)
    {rest : List (String × Json)} {others : Message}
    (hrest : readFields schema fields rest = some others) :
    readFields schema fields ((key, json) :: rest) = some (setField field value others) := by
  rw [readFields.eq_def]
  cases json with
  | null => cases hkind : field.kind <;> simp [readItem, readScalar, hkind] at hvalue
  | list items => cases hkind : field.kind <;> simp [readItem, readScalar, hkind] at hvalue
  | _ => simp [hfound, hsingle, hvalue, hrest]

theorem readFields_cons_items {schema : Schema} {fields : List Field} {key : String} {field : Field}
    (hfound : findField fields key = some field) (hrepeated : field.isRepeated = true)
    {list : List Json} {values : List Value} (hvalues : readItems schema field.kind list = some values)
    {rest : List (String × Json)} {others : Message}
    (hrest : readFields schema fields rest = some others) :
    readFields schema fields ((key, .list list) :: rest) =
      some (if values.isEmpty then others else (field.name, .repeated values) :: others) := by
  rw [readFields.eq_def]
  simp [hfound, hrepeated, hvalues, hrest]

mutual

theorem readItem_toJson {schema : Schema} (hschema : schema.Distinct) (kind : FieldKind)
    (value : Value) (h : conformsItem schema kind value = true) :
    readItem schema kind value.toJson = some value := by
  cases value with
  | scalar s =>
    cases kind with
    | scalar kind => exact readItem_scalar h
    | message type => cases h
  | message entries =>
    cases kind with
    | scalar kind => cases h
    | message type =>
      rw [Value.toJson, readItem, readFields_toDict hschema (hschema type) entries h, Option.map_some]
  | repeated items => cases h

theorem readFields_toDict {schema : Schema} (hschema : schema.Distinct) {fields : List Field}
    (hfields : (fields.map fun f => jsonName f.name).Nodup) (entries : List (String × Value))
    (h : conformsFields schema fields entries = true) :
    readFields schema fields (fieldsToDict entries) = some entries := by
  cases entries with
  | nil => rfl
  | cons entry rest =>
    obtain ⟨name, value⟩ := entry
    obtain ⟨field, hfind, hrest, hvalue⟩ := conformsFields_cons h
    have hname : field.name = name := by simpa using List.find?_some hfind
    have hfound := findField_jsonName hfields hfind
    have hothers := readFields_toDict hschema hfields rest hrest
    rw [fieldsToDict]
    cases value with
    | repeated items =>
      obtain ⟨hrepeated, hnonempty, hconforms⟩ := hvalue
      rw [Value.toJson, readFields_cons_items hfound hrepeated
        (readItems_toList hschema field.kind items hconforms) hothers, hnonempty, hname]
      rfl
    | scalar s =>
      obtain ⟨hsingle, hset, hconforms⟩ := hvalue
      rw [readFields_cons_item hfound hsingle
        (readItem_toJson hschema field.kind (.scalar s) hconforms) hothers, setField_of_isSet hset,
        hname]
    | message inner =>
      obtain ⟨hsingle, hset, hconforms⟩ := hvalue
      rw [readFields_cons_item hfound hsingle
        (readItem_toJson hschema field.kind (.message inner) hconforms) hothers,
        setField_of_isSet hset, hname]

theorem readItems_toList {schema : Schema} (hschema : schema.Distinct) (kind : FieldKind)
    (items : List Value) (h : conformsItems schema kind items = true) :
    readItems schema kind (itemsToList items) = some items := by
  cases items with
  | nil => rfl
  | cons item items =>
    rw [conformsItems, Bool.and_eq_true] at h
    rw [itemsToList, readItems, readItem_toJson hschema kind item h.1,
      readItems_toList hschema kind items h.2]
    rfl

end

theorem exists_field_of_conforms {schema : Schema} {type : String} {m : Message}
    (h : conforms schema type m = true) : ∀ entry ∈ m, ∃ field ∈ schema.fields type,
      field.name = entry.1 := by
  unfold conforms at h
  induction m with
  | nil => exact fun _ hentry => nomatch hentry
  | cons first rest ih =>
    obtain ⟨name, value⟩ := first
    obtain ⟨field, hfind, hrest, -⟩ := conformsFields_cons h
    rw [List.forall_mem_cons]
    exact ⟨⟨field, List.mem_of_find?_eq_some hfind, by simpa using List.find?_some hfind⟩, ih hrest⟩

end Chattice.Protobuf
