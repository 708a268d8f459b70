import Chattice.Fsm.Adapter
import Chattice.Fsm.Storage

/-!
# `BaseStorageFromRecord` refines `MemoryStorage`

The six methods of the adapter, each run to its end on a `MemoryFSMRecordStorage` that nobody else
uses, beside those of `MemoryStorage`. The entries differ: `finish` deletes one record and empties
the other, `set_state(None)` on an absent key creates one. They show the same state and data.

* `Call.exec` : a call run on its own, for every clock;
* `Represents` : two entries that show the same state and data;
* `adapter_refines_memory` : the same results, and no exception.
-/

namespace Chattice.Fsm.Adapter

abbrev Clock := Nat → Rat × Rat

/-- The call from `phase` on, for at most `fuel` steps. -/
def Call.exec (call : Call) (clock : Clock) :
    Nat → Phase → Option FSMRecord → Option FSMRecord × Phase
  | 0, phase, entry => (entry, phase)
  | fuel + 1, phase, entry =>
    let stepped := phase.step call (clock 0).1 (clock 0).2 entry
    call.exec (fun n => clock (n + 1)) fuel stepped.2.1 stepped.1

/-- How a method of the adapter ends, if it does. -/
inductive Outcome where
  | returned (result : StorageResult)
  | conflict (error : FSMRecordConflict)
  | typeError (error : TypeError)
  | running

def Phase.outcome : Phase → Outcome
  | .returned .none => .returned .none
  | .returned (.merged data) => .returned (.data data)
  | .conflict error => .conflict error
  | .typeError error => .typeError error
  | .probing | .reading | .writing _ _ _ => .running

/-- A method that writes, run on its own. -/
def Call.run (call : Call) (clock : Clock) (fuel : Nat) (entry : Option FSMRecord) :
    Option FSMRecord × Outcome :=
  ((call.exec clock fuel call.start entry).1, (call.exec clock fuel call.start entry).2.outcome)

/-- A method of the adapter on the entry of its key. -/
def storageCall (fuel : Nat) (entry : Option FSMRecord) :
    StorageCall PyValue.Fields × Clock → Option FSMRecord × Outcome
  | (.getState, clock) =>
    let (entry, record) := getRecord (clock 0).1 entry
    (entry, .returned (.state (record.bind FSMRecord.state)))
  | (.getData, clock) =>
    let (entry, record) := getRecord (clock 0).1 entry
    (entry, .returned (.data (currentData record)))
  | (.setState state, clock) => (Call.setState state).run clock fuel entry
  | (.setData data, clock) => (Call.setData data).run clock fuel entry
  | (.updateData partialData, clock) => (Call.updateData partialData).run clock fuel entry
  | (.finish, clock) => Call.finish.run clock fuel entry

/-! ## A call on its own -/

def Perpetual (entry : Option FSMRecord) : Prop := entry.bind FSMRecord.expiresAt = .none

theorem Perpetual.dropExpired {entry : Option FSMRecord} (h : Perpetual entry) (now : Rat) :
    dropExpired now entry = entry := dropExpired_of_unexpired (unexpired_of_none now h)

theorem Call.exec_returned (call : Call) (clock : Clock) (fuel : Nat) (result : Result)
    (entry : Option FSMRecord) :
    call.exec clock fuel (.returned result) entry = (entry, .returned result) := by
  induction fuel generalizing clock with
  | zero => rfl
  | succ fuel ih => exact ih _

theorem newRecord_ofJson (state : Option String) (data : Json.Fields) (expiresAt : Option Rat)
    (schemaVersion : Int) : newRecord state (PyValue.ofJson data) expiresAt schemaVersion =
      .ok ⟨state, data, 0, none, expiresAt, schemaVersion⟩ := by
  rw [newRecord, requireItems_ofJson]
  rfl

theorem newRecord_expiresAt {state : Option String} {data : PyValue.Fields} {expiresAt : Option Rat}
    {schemaVersion : Int} {record : FSMRecord}
    (h : newRecord state data expiresAt schemaVersion = .ok record) :
    record.expiresAt = expiresAt := by
  obtain ⟨data', -, hrecord⟩ := Except.bind_eq_ok.mp h
  rw [Except.pure_eq_ok] at hrecord
  rw [← hrecord]

/-- From its read on, a call whose replacement is a record writes it and returns. -/
theorem Call.exec_reading {call : Call} {entry : Option FSMRecord} {replacement : FSMRecord}
    (hentry : Perpetual entry) (h : call.replacement entry = .ok replacement) (clock : Clock)
    (fuel : Nat) : ∃ entry', call.exec clock (fuel + 2) .reading entry =
        (entry', .returned (call.result entry)) ∧
      view entry' = ⟨replacement.state, replacement.data⟩ ∧ Perpetual entry' := by
  have hdrop := hentry.dropExpired
  have hperpetual : replacement.expiresAt = .none := (newRecord_expiresAt h).trans hentry
  refine ⟨some { replacement with
    revision := currentRevision entry + 1, updatedAt := some (clock 1).2 }, ?_, rfl, hperpetual⟩
  rw [Call.exec, Call.exec]
  simp only [Phase.step, getRecord, hdrop, Call.prepared, h,
    compareAndSet_of_eq (congrArg currentRevision (hdrop _))]
  exact call.exec_returned _ fuel _ _

theorem Call.run_of_replacement {call : Call} {entry : Option FSMRecord} {replacement : FSMRecord}
    (hentry : Perpetual entry) (h : call.replacement entry = .ok replacement)
    (hfound : call = .finish → ∃ record, entry = some record) (clock : Clock) (fuel : Nat) :
    ∃ entry', call.run clock (fuel + 3) entry =
        (entry', (Phase.returned (call.result entry)).outcome) ∧
      view entry' = ⟨replacement.state, replacement.data⟩ ∧ Perpetual entry' := by
  have hreading : ∃ clock' fuel', call.exec clock (fuel + 3) call.start entry =
      call.exec clock' (fuel' + 2) .reading entry := by
    cases call with
    | finish =>
      obtain ⟨record, rfl⟩ := hfound rfl
      refine ⟨fun n => clock (n + 1), fuel, ?_⟩
      rw [Call.start, Call.exec]
      simp only [Phase.step, getRecord, hentry.dropExpired]
    | updateData partialData => exact ⟨clock, fuel + 1, rfl⟩
    | setState state => exact ⟨clock, fuel + 1, rfl⟩
    | setData data => exact ⟨clock, fuel + 1, rfl⟩
  obtain ⟨clock', fuel', hsame⟩ := hreading
  obtain ⟨entry', hexec, hview, hperpetual⟩ := call.exec_reading hentry h clock' fuel'
  exact ⟨entry', by rw [Call.run, hsame, hexec], hview, hperpetual⟩

/-! ## The two storages -/

/-- The entries of the two storages show the same state and the same JSON data. -/
structure Represents (entry : Option FSMRecord) (memory : Option MemoryStorage.Record) : Prop where
  perpetual : Perpetual entry
  state : (MemoryStorage.record memory).state = (view entry).state
  data : (MemoryStorage.record memory).data = PyValue.ofJson (view entry).data

theorem represents_none : Represents none none := ⟨rfl, rfl, rfl⟩

/-- What a method that writes leaves, and that it returns. -/
theorem Represents.write {call : Call} {entry : Option FSMRecord} {state : Option String}
    {data : Json.Fields} {expiresAt : Option Rat} {schemaVersion : Int} (hentry : Perpetual entry)
    (h : call.replacement entry = newRecord state (PyValue.ofJson data) expiresAt schemaVersion)
    (hfound : call = .finish → ∃ record, entry = some record) (clock : Clock) (fuel : Nat) :
    (∀ memory, (MemoryStorage.record memory).state = state →
      (MemoryStorage.record memory).data = PyValue.ofJson data →
      Represents (call.run clock (fuel + 3) entry).1 memory) ∧
    (call.run clock (fuel + 3) entry).2 = (Phase.returned (call.result entry)).outcome := by
  rw [newRecord_ofJson] at h
  obtain ⟨entry', hrun, hview, hperpetual⟩ := call.run_of_replacement hentry h hfound clock fuel
  rw [hrun]
  refine ⟨fun memory hstate hdata => ⟨hperpetual, ?_, ?_⟩, rfl⟩
  · rw [hstate, hview]
  · rw [hdata, hview]

theorem state_eq (entry : Option FSMRecord) : entry.bind FSMRecord.state = (view entry).state := by
  cases entry <;> rfl

/-- One call with JSON data, on both sides. -/
theorem represents_call (fuel : Nat) {entry : Option FSMRecord}
    {memory : Option MemoryStorage.Record} (h : Represents entry memory)
    (c : StorageCall Json.Fields × Clock) :
    Represents (storageCall (fuel + 3) entry (c.1.map PyValue.ofJson, c.2)).1
        (MemoryStorage.call memory (c.1.map PyValue.ofJson)).1 ∧
      (storageCall (fuel + 3) entry (c.1.map PyValue.ofJson, c.2)).2 =
        .returned (MemoryStorage.call memory (c.1.map PyValue.ofJson)).2 := by
  obtain ⟨hperpetual, hstate, hdata⟩ := h
  have hdrop := hperpetual.dropExpired
  have hcurrent := currentData_eq entry
  obtain ⟨c, clock⟩ := c
  cases c with
  | getState =>
    simp only [StorageCall.map, storageCall, getRecord, hdrop, MemoryStorage.call]
    refine ⟨⟨hperpetual, hstate, hdata⟩, ?_⟩
    rw [state_eq, ← hstate]
    cases memory <;> rfl
  | getData =>
    simp only [StorageCall.map, storageCall, getRecord, hdrop, MemoryStorage.call]
    rw [hcurrent, ← hdata]
    cases memory <;> exact ⟨⟨hperpetual, hstate, hdata⟩, rfl⟩
  | setState state =>
    have hreplacement : (Call.setState state).replacement entry = newRecord state
        (PyValue.ofJson (view entry).data) (entry.bind FSMRecord.expiresAt)
        (entry.elim 0 FSMRecord.schemaVersion) := by rw [Call.replacement, hcurrent]
    obtain ⟨hentry, hresult⟩ := Represents.write hperpetual hreplacement (fun h => by cases h) clock fuel
    simp only [StorageCall.map, storageCall, MemoryStorage.call]
    split
    next habsent =>
      -- `MemoryStorage` keeps the absent key absent
      obtain ⟨rfl, hnone⟩ := habsent
      obtain rfl := Option.isNone_iff_eq_none.mp hnone
      exact ⟨hentry none rfl hdata, hresult⟩
    · exact ⟨hentry _ rfl hdata, hresult⟩
  | setData data =>
    have hreplacement : (Call.setData (PyValue.ofJson data)).replacement entry =
        newRecord (MemoryStorage.record memory).state (PyValue.ofJson data)
          (entry.bind FSMRecord.expiresAt) (entry.elim 0 FSMRecord.schemaVersion) := by
      rw [Call.replacement, state_eq, hstate]
    obtain ⟨hentry, hresult⟩ := Represents.write hperpetual hreplacement (fun h => by cases h) clock fuel
    exact ⟨hentry _ rfl rfl, hresult⟩
  | updateData partialData =>
    have hmerged : PyValue.update (MemoryStorage.record memory).data (PyValue.ofJson partialData) =
        PyValue.ofJson (Json.update (view entry).data partialData) := by
      rw [hdata, PyValue.update_ofJson]
    have hreplacement : (Call.updateData (PyValue.ofJson partialData)).replacement entry =
        newRecord (MemoryStorage.record memory).state
          (PyValue.ofJson (Json.update (view entry).data partialData))
          (entry.bind FSMRecord.expiresAt) (entry.elim 0 FSMRecord.schemaVersion) := by
      rw [Call.replacement, state_eq, hstate, hcurrent, PyValue.update_ofJson]
    obtain ⟨hentry, hresult⟩ := Represents.write hperpetual hreplacement (fun h => by cases h) clock fuel
    refine ⟨hentry _ rfl hmerged, hresult.trans ?_⟩
    simp only [Call.result, Phase.outcome, StorageCall.map, MemoryStorage.call]
    rw [hcurrent, hdata]
  | finish =>
    simp only [StorageCall.map, storageCall, MemoryStorage.call]
    cases entry with
    | none =>
      have hexec : Call.finish.exec clock (fuel + 3) .probing none = (none, .returned .none) :=
        Call.finish.exec_returned (fun n => clock (n + 1)) (fuel + 2) .none none
      rw [Call.run, Call.start, hexec]
      exact ⟨represents_none, rfl⟩
    | some record =>
      have hreplacement : Call.finish.replacement (some record) =
          newRecord (MemoryStorage.record none).state (PyValue.ofJson []) record.expiresAt
            record.schemaVersion := rfl
      obtain ⟨hentry, hresult⟩ :=
        Represents.write hperpetual hreplacement (fun _ => ⟨record, rfl⟩) clock fuel
      exact ⟨hentry none rfl rfl, hresult⟩

/-- **The adapter refines `MemoryStorage`.** Every sequence of calls on any keys, with JSON data,
returns on the adapter what it returns on `MemoryStorage`, whatever the clock shows: no call raises,
and three steps are enough for each. -/
theorem adapter_refines_memory (fuel : Nat)
    (calls : List (StorageKey × StorageCall Json.Fields × Clock)) :
    (Keyed.run (storageCall (fuel + 3)) (fun _ => none)
        (calls.map fun c => (c.1, c.2.1.map PyValue.ofJson, c.2.2))).2 =
      (Keyed.run MemoryStorage.call (fun _ => none)
        (calls.map fun c => (c.1, c.2.1.map PyValue.ofJson))).2.map .returned := by
  rw [Keyed.run_map (storageCall (fuel + 3))
    (fun c : StorageCall Json.Fields × Clock => (c.1.map PyValue.ofJson, c.2))]
  refine Keyed.run_simulates Represents
    (g := fun c : StorageCall Json.Fields × Clock => c.1.map PyValue.ofJson) ?_ ?_ calls
  · exact fun entry memory c h => represents_call fuel h c
  · exact fun _ => represents_none

end Chattice.Fsm.Adapter
