import Chattice.Fsm.Adapter
import Chattice.Fsm.RedisRecord

/-!
# The JSON document of an `FSMRecord`

* `FSMRecord.new` : the constructor, which normalizes the data;
* `FSMRecord.Built` : a record that the constructor has built; its data have no key twice;
* `encode`, `decode` : `_encode` and `_decode`, over the `dumps` and `loads` of the `json` module;
* `decode_encode` : a record that was built is decoded from its document.
-/

namespace Chattice.Fsm

open Adapter (requireItems requireItems_ofJson)

/-- `FSMRecord(...)`, given the `str` of every key of `data`: of two keys with the same text the
first place and the last value stay. -/
def FSMRecord.new (state : Option String) (data : PyValue.Fields) (revision : Int)
    (updatedAt expiresAt : Option Rat) (schemaVersion : Int) : Except TypeError FSMRecord := do
  let data ← requireItems "FSMRecord.data" data
  return ⟨state, Json.update [] data, revision, updatedAt, expiresAt, schemaVersion⟩

def FSMRecord.Built (record : FSMRecord) : Prop :=
  ∃ data, FSMRecord.new record.state data record.revision record.updatedAt record.expiresAt
    record.schemaVersion = .ok record

theorem FSMRecord.new_ofJson {data : Json.Fields} (h : (data.map Prod.fst).Nodup)
    (state : Option String) (revision : Int) (updatedAt expiresAt : Option Rat)
    (schemaVersion : Int) :
    FSMRecord.new state (PyValue.ofJson data) revision updatedAt expiresAt schemaVersion =
      .ok ⟨state, data, revision, updatedAt, expiresAt, schemaVersion⟩ := by
  have hnodup : (([] ++ data).map Prod.fst).Nodup := h
  rw [FSMRecord.new, requireItems_ofJson, Except.ok_bind, Json.update_of_nodup hnodup]
  rfl

/-- What `replace(record, ...)` builds again is built. -/
theorem FSMRecord.built_iff {record : FSMRecord} :
    record.Built ↔ (record.data.map Prod.fst).Nodup := by
  constructor
  · rintro ⟨data, hnew⟩
    obtain ⟨fields, -, hrecord⟩ := Except.bind_eq_ok.mp hnew
    rw [← Except.pure_eq_ok.mp hrecord]
    exact Json.nodup_update fields List.nodup_nil
  · intro hnodup
    exact ⟨PyValue.ofJson record.data, FSMRecord.new_ofJson hnodup _ _ _ _ _⟩

/-! ## The document -/

namespace RedisRecord

/-- The dictionary that `_encode` dumps. -/
def document (record : FSMRecord) : Json :=
  .dict
    [("state", record.state.elim .null .str),
      ("data", .dict record.data),
      ("revision", .int record.revision),
      ("updated_at", record.updatedAt.elim .null .float),
      ("expires_at", record.expiresAt.elim .null .float),
      ("schema_version", .int record.schemaVersion)]

def textField : Json → Option (Option String)
  | .null => some none
  | .str text => some (some text)
  | _ => none

def numberField : Json → Option (Option Rat)
  | .null => some none
  | value => value.number.map some

/-- `value or {}` -/
def dictOrEmpty : Json → Option Json.Fields
  | .dict fields => some fields
  | value => if value.truthy = true then none else some []

/-- `int(value or 0)` -/
def intOrZero : Json → Option Int
  | .bool b => some (if b then 1 else 0)
  | .int n => some n
  | .float q => some (q.num.tdiv q.den)
  | value => if value.truthy = true then none else some 0

/-- The record that `_decode` builds from a document with fields of the right types. -/
def ofDocument : Json → Option FSMRecord
  | .dict payload => do
    let state ← textField (Json.get payload "state")
    let data ← dictOrEmpty (Json.get payload "data")
    let revision ← intOrZero (Json.get payload "revision")
    let updatedAt ← numberField (Json.get payload "updated_at")
    let expiresAt ← numberField (Json.get payload "expires_at")
    let schemaVersion ← intOrZero (Json.get payload "schema_version")
    (FSMRecord.new state (PyValue.ofJson data) revision updatedAt expiresAt schemaVersion).toOption
  | _ => none

/-- `_encode` -/
def encode (dumps : Json → String) (record : FSMRecord) : String := dumps (document record)

/-- `_decode`; `none` when it raises. -/
def decode (loads : String → Option Json) (raw : String) : Option FSMRecord :=
  (loads raw).bind ofDocument

theorem textField_elim (state : Option String) : textField (state.elim .null .str) = some state := by
  cases state <;> rfl

theorem numberField_elim (number : Option Rat) :
    numberField (number.elim .null .float) = some number := by
  cases number <;> rfl

theorem ofDocument_document {record : FSMRecord} (h : record.Built) :
    ofDocument (document record) = some record := by
  have hnew := FSMRecord.new_ofJson (FSMRecord.built_iff.mp h) record.state record.revision
    record.updatedAt record.expiresAt record.schemaVersion
  simp [ofDocument, document, Json.get, Json.lookup_cons_ite, textField_elim, numberField_elim,
    dictOrEmpty, intOrZero, hnew, Except.toOption]

/-- A record that was built is decoded from its document. -/
theorem decode_encode {dumps : Json → String} {loads : String → Option Json}
    (hjson : ∀ value, loads (dumps value) = some value) {record : FSMRecord} (h : record.Built) :
    decode loads (encode dumps record) = some record := by
  rw [decode, encode, hjson]
  exact ofDocument_document h

end RedisRecord

end Chattice.Fsm
