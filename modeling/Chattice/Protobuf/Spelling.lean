import Chattice.Protobuf.Schema

/-!
# Which JSON gives a message a field

* `spells` : a dictionary has a field with the given JSON name, at a place the schema knows, under
  either of its names;
* `readMessage_sets` : the message read from it has the field exactly then.
-/

namespace Chattice.Protobuf

section Spells

variable (schema : Schema) (key : String)

mutual

def spellsItem (kind : FieldKind) : Json → Bool
  | .dict entries =>
    match kind with
    | .message type => spellsFields (schema.fields type) entries
    | .scalar _ => false
  | _ => false
termination_by structural json => json

def spellsFields (fields : List Field) : List (String × Json) → Bool
  | [] => false
  | (name, value) :: rest =>
    (match findField fields name, value with
    | none, _ => false
    | some _, .null => false
    | some field, .list items =>
      !items.isEmpty && (jsonName field.name == key || spellsItems field.kind items)
    | some field, value => jsonName field.name == key || spellsItem field.kind value) ||
    spellsFields fields rest
termination_by structural entries => entries

def spellsItems (kind : FieldKind) : List Json → Bool
  | [] => false
  | item :: items => spellsItem kind item || spellsItems kind items
termination_by structural items => items

end

/-- The dictionary has, somewhere the schema knows, a field with the JSON name and a value: under that
name or under the field's own. -/
def spells (type : String) (data : Json.Fields) : Bool :=
  spellsFields schema key (schema.fields type) data

end Spells

/-- Every field with the JSON name holds a message. -/
def Schema.IsMessage (schema : Schema) (key : String) : Prop :=
  ∀ type, ∀ field ∈ schema.fields type, jsonName field.name = key → ∃ t, field.kind = .message t

theorem findField_mem {fields : List Field} {name : String} {field : Field}
    (h : findField fields name = some field) : field ∈ fields := by
  rw [findField, Option.or_eq_some_iff] at h
  obtain h | ⟨-, h⟩ := h
  · exact List.mem_of_find?_eq_some h
  · exact List.mem_of_find?_eq_some h

theorem sets_setField {field : Field} {value : Value} {rest : Message} (key : String)
    (hfield : jsonName field.name = key → ∃ t, field.kind = .message t) :
    Message.sets key (setField field value rest) =
      (jsonName field.name == key || value.sets key || rest.sets key) := by
  unfold setField
  split
  · next kind s hkind =>
    have hne : jsonName field.name ≠ key := by
      intro heq
      obtain ⟨t, ht⟩ := hfield heq
      rw [hkind] at ht
      cases ht
    rw [beq_eq_false_iff_ne.mpr hne]
    split
    · rfl
    · show (jsonName field.name == key || _ || _) = _
      rw [beq_eq_false_iff_ne.mpr hne]
      rfl
  · rfl

/-- A value that is neither `null` nor a list. -/
def IsSingle : Json → Prop
  | .null => False
  | .list _ => False
  | _ => True

theorem readFields_cons_single {schema : Schema} {fields : List Field} {name : String} {field : Field}
    (hfound : findField fields name = some field) {value : Json} (hsingle : IsSingle value)
    {rest : List (String × Json)} {m : Message}
    (h : readFields schema fields ((name, value) :: rest) = some m) :
    ∃ item others, readItem schema field.kind value = some item ∧
      readFields schema fields rest = some others ∧ m = setField field item others := by
  have hread : (if field.isRepeated then none
      else do
        let item ← readItem schema field.kind value
        let others ← readFields schema fields rest
        return setField field item others) = some m := by
    rw [readFields.eq_def] at h
    cases value with
    | null => cases hsingle
    | list items => cases hsingle
    | _ => simpa only [hfound] using h
  split at hread
  · cases hread
  · obtain ⟨item, hitem, hread⟩ := Option.bind_eq_some_iff.mp hread
    obtain ⟨others, hothers, hread⟩ := Option.bind_eq_some_iff.mp hread
    exact ⟨item, others, hitem, hothers, (Option.some.inj hread).symm⟩

theorem readFields_cons_list {schema : Schema} {fields : List Field} {name : String} {field : Field}
    (hfound : findField fields name = some field) {items : List Json}
    {rest : List (String × Json)} {m : Message}
    (h : readFields schema fields ((name, .list items) :: rest) = some m) :
    ∃ values others, readItems schema field.kind items = some values ∧
      readFields schema fields rest = some others ∧
      m = if values.isEmpty then others else (field.name, .repeated values) :: others := by
  rw [readFields.eq_def] at h
  simp only [hfound] at h
  split at h
  · obtain ⟨values, hvalues, h⟩ := Option.bind_eq_some_iff.mp h
    obtain ⟨others, hothers, h⟩ := Option.bind_eq_some_iff.mp h
    exact ⟨values, others, hvalues, hothers, (Option.some.inj h).symm⟩
  · cases h

theorem readItems_isEmpty {schema : Schema} {kind : FieldKind} {items : List Json}
    {values : List Value} (h : readItems schema kind items = some values) :
    values.isEmpty = items.isEmpty := by
  cases items with
  | nil =>
    cases h
    rfl
  | cons item items =>
    obtain ⟨value, -, h⟩ := Option.bind_eq_some_iff.mp h
    obtain ⟨values', -, h⟩ := Option.bind_eq_some_iff.mp h
    cases h
    rfl

theorem spellsFields_cons_single {schema : Schema} {key : String} {fields : List Field} {name : String}
    {field : Field} (hfound : findField fields name = some field) {value : Json}
    (hsingle : IsSingle value) (rest : List (String × Json)) :
    spellsFields schema key fields ((name, value) :: rest) =
      (jsonName field.name == key || spellsItem schema key field.kind value ||
        spellsFields schema key fields rest) := by
  rw [spellsFields.eq_def]
  cases value with
  | null => cases hsingle
  | list items => cases hsingle
  | _ => simp only [hfound]

mutual

theorem readItem_sets {schema : Schema} {key : String} (hschema : schema.IsMessage key)
    (kind : FieldKind) (json : Json) {value : Value} (h : readItem schema kind json = some value) :
    value.sets key = spellsItem schema key kind json := by
  cases json with
  | dict entries =>
    cases kind with
    | scalar kind => cases h
    | message type =>
      obtain ⟨m, hm, rfl⟩ := Option.map_eq_some_iff.mp h
      exact readFields_sets hschema (hschema type) entries hm
  | _ =>
    cases kind with
    | scalar kind =>
      obtain ⟨s, -, rfl⟩ := Option.map_eq_some_iff.mp h
      rfl
    | message type => cases h

theorem readFields_sets {schema : Schema} {key : String} (hschema : schema.IsMessage key)
    {fields : List Field}
    (hfields : ∀ field ∈ fields, jsonName field.name = key → ∃ t, field.kind = .message t)
    (data : List (String × Json)) {m : Message} (h : readFields schema fields data = some m) :
    Message.sets key m = spellsFields schema key fields data := by
  cases data with
  | nil =>
    cases h
    rfl
  | cons entry rest =>
    obtain ⟨name, value⟩ := entry
    cases hfound : findField fields name with
    | none =>
      have hrest : readFields schema fields rest = some m := by
        rw [readFields.eq_def] at h
        simpa only [hfound] using h
      rw [readFields_sets hschema hfields rest hrest, spellsFields.eq_def schema key fields (_ :: _)]
      simp only [hfound, Bool.false_or]
    | some field =>
      have hmessage := hfields field (findField_mem hfound)
      cases value with
      | null =>
        have hrest : readFields schema fields rest = some m := by
          rw [readFields.eq_def] at h
          simpa only [hfound] using h
        rw [readFields_sets hschema hfields rest hrest, spellsFields.eq_def schema key fields (_ :: _)]
        simp only [hfound, Bool.false_or]
      | list items =>
        obtain ⟨values, others, hvalues, hothers, rfl⟩ := readFields_cons_list hfound h
        have hitems := readItems_sets hschema field.kind items hvalues
        have hrest := readFields_sets hschema hfields rest hothers
        rw [spellsFields.eq_def schema key fields (_ :: _)]
        simp only [hfound]
        rw [← readItems_isEmpty hvalues, ← hitems, ← hrest]
        split
        · next hempty => rw [hempty]; rfl
        · next hempty =>
          rw [Bool.not_eq_true] at hempty
          rw [hempty]
          rfl
      | _ =>
        obtain ⟨item, others, hitem, hothers, rfl⟩ := readFields_cons_single hfound (by trivial) h
        rw [sets_setField key hmessage, readItem_sets hschema field.kind _ hitem,
          readFields_sets hschema hfields rest hothers]
        exact (spellsFields_cons_single hfound (by trivial) rest).symm

theorem readItems_sets {schema : Schema} {key : String} (hschema : schema.IsMessage key)
    (kind : FieldKind) (items : List Json) {values : List Value}
    (h : readItems schema kind items = some values) :
    itemsSet key values = spellsItems schema key kind items := by
  cases items with
  | nil =>
    cases h
    rfl
  | cons item items =>
    obtain ⟨value, hvalue, h⟩ := Option.bind_eq_some_iff.mp h
    obtain ⟨values', hvalues, h⟩ := Option.bind_eq_some_iff.mp h
    cases h
    rw [itemsSet, spellsItems, readItem_sets hschema kind item hvalue,
      readItems_sets hschema kind items hvalues]

end

/-- **A message has a field anywhere exactly when its JSON spells it.** -/
theorem readMessage_sets {schema : Schema} {key : String} (hschema : schema.IsMessage key)
    {type : String} {data : Json.Fields} {m : Message} (h : readMessage schema type data = some m) :
    m.sets key = spells schema key type data :=
  readFields_sets hschema (hschema type) data h

end Chattice.Protobuf
