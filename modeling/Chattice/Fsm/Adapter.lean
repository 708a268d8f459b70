import Chattice.Concurrency.Linearize
import Chattice.Data.Except
import Chattice.Fsm.Record
import Chattice.Python.Value

/-!
# `BaseStorageFromRecord` on a `MemoryFSMRecordStorage`

The calls of the adapter on one key, with every `get_record` and every `compare_and_set` as one step.
`update_data` reads, merges and writes until its write succeeds; the others read and write once, and
raise when the record has changed in between; `finish` first looks whether there is a record.

* `Phase.step` : the next step of a call;
* `adapter` : the interleavings of calls while the stored record does not expire;
* `Call.apply` : what a call means for the state and the data;
* `adapter_linearizes` : the state and the data are those of the calls that have returned, applied one
  after the other in the order of their writes; the calls that have raised are not among them.
-/

namespace Chattice.Fsm.Adapter

open Concurrency (Machine Simulation Replays)

/-! ## Records from Python values -/

mutual

/-- `_require_json_value` -/
def requireJsonValue («where» : String) : PyValue → Except TypeError Json
  | .json value => .ok value
  | .enum value => requireJsonValue «where» value
  | .mapping items => do return .dict (Json.update [] (← requireItems «where» items))
  | .sequence items => do return .list (← requireList «where» items)
  | .other typeName => .error ⟨«where» ++
      " must be JSON-serializable (str/int/float/bool/None/list/dict); got " ++ typeName⟩
termination_by structural value => value

def requireItems («where» : String) : List (String × PyValue) → Except TypeError Json.Fields
  | [] => .ok []
  | (key, value) :: items => do
    let value ← requireJsonValue «where» value
    return (key, value) :: (← requireItems «where» items)
termination_by structural items => items

def requireList («where» : String) : List PyValue → Except TypeError (List Json)
  | [] => .ok []
  | value :: items => do
    let value ← requireJsonValue «where» value
    return value :: (← requireList «where» items)
termination_by structural items => items

end

/-- `FSMRecord(state, data, expires_at, schema_version)` -/
def newRecord (state : Option String) (data : PyValue.Fields) (expiresAt : Option Rat)
    (schemaVersion : Int) : Except TypeError FSMRecord := do
  let data ← requireItems "FSMRecord.data" data
  return ⟨state, data, 0, none, expiresAt, schemaVersion⟩

/-! ## The calls -/

inductive Call where
  | updateData (partialData : PyValue.Fields)
  | setState (state : Option String)
  | setData (data : PyValue.Fields)
  | finish

/-- What a call returns: `update_data` the merged data. -/
inductive Result where
  | none
  | merged (data : PyValue.Fields)

/-- `dict(current.data) if current else {}` -/
def currentData : Option FSMRecord → PyValue.Fields
  | .none => []
  | some current => PyValue.ofJson current.data

/-- The record that replaces `current`. -/
def Call.replacement (call : Call) (current : Option FSMRecord) : Except TypeError FSMRecord :=
  newRecord
    (match call with
      | .updateData _ | .setData _ => current.bind FSMRecord.state
      | .setState state => state
      | .finish => .none)
    (match call with
      | .updateData partialData => PyValue.update (currentData current) partialData
      | .setState _ => currentData current
      | .setData data => data
      | .finish => [])
    (current.bind FSMRecord.expiresAt)
    (current.elim 0 FSMRecord.schemaVersion)

/-- What the call returns once it has replaced `current`. -/
def Call.result (call : Call) (current : Option FSMRecord) : Result :=
  match call with
  | .updateData partialData => .merged (PyValue.update (currentData current) partialData)
  | _ => .none

/-- Where a call is: `finish` looks for a record before it reads, `writing` holds what
`compare_and_set` is called with, and the result. -/
inductive Phase where
  | probing
  | reading
  | writing (revision : Int) (replacement : FSMRecord) (result : Result)
  | returned (result : Result)
  | conflict (error : FSMRecordConflict)
  | typeError (error : TypeError)

def Call.start : Call → Phase
  | .finish => .probing
  | _ => .reading

/-- `get_record` has returned `current`. -/
def Call.prepared (call : Call) (current : Option FSMRecord) : Phase :=
  match call.replacement current with
  | .error error => .typeError error
  | .ok replacement => .writing (currentRevision current) replacement (call.result current)

/-- `except FSMRecordConflict` -/
def Call.conflicted (call : Call) (error : FSMRecordConflict) : Phase :=
  match call with
  | .updateData _ => .reading
  | _ => .conflict error

/-- The next step, with its clock readings: the entry and the phase it leaves, and the result of the
call when it takes effect. -/
def Phase.step (call : Call) (now now' : Rat) (entry : Option FSMRecord) :
    Phase → Option FSMRecord × Phase × Option Result
  | .probing =>
    match getRecord now entry with
    | (entry, .none) => (entry, .returned .none, some .none)
    | (entry, some _) => (entry, .reading, .none)
  | .reading => ((getRecord now entry).1, call.prepared (getRecord now entry).2, .none)
  | .writing revision replacement result =>
    match compareAndSet revision replacement now now' entry with
    | (entry, .ok _) => (entry, .returned result, some result)
    | (entry, .error error) => (entry, call.conflicted error, .none)
  | phase => (entry, phase, .none)

def Unexpired (now : Rat) (entry : Option FSMRecord) : Prop :=
  ∀ record, entry = some record → expired record now = false

/-- The interleavings of calls on a key whose record does not expire. -/
def adapter : Machine Call Phase (Option FSMRecord) Result where
  start := Call.start
  Step := fun _ call phase entry phase' entry' result =>
    ∃ now now', Unexpired now entry ∧ phase.step call now now' entry = (entry', phase', result)

/-! ## What the calls mean -/

structure View where
  state : Option String
  data : Json.Fields

def view : Option FSMRecord → View
  | .none => ⟨.none, []⟩
  | some record => ⟨record.state, record.data⟩

/-- The state and the data after the call. -/
def Call.apply (call : Call) (v : View) : Except TypeError View :=
  match call with
  | .updateData partialData => do
    let data ← requireItems "FSMRecord.data" (PyValue.update (PyValue.ofJson v.data) partialData)
    return { v with data := data }
  | .setState state => return { v with state := state }
  | .setData data => do
    let data ← requireItems "FSMRecord.data" data
    return { v with data := data }
  | .finish => return ⟨.none, []⟩

def Call.answer (call : Call) (v : View) : Result :=
  match call with
  | .updateData partialData => .merged (PyValue.update (PyValue.ofJson v.data) partialData)
  | _ => .none

def Exec (call : Call) (v : View) (result : Result) (v' : View) : Prop :=
  call.apply v = .ok v' ∧ call.answer v = result

theorem currentData_eq (current : Option FSMRecord) :
    currentData current = PyValue.ofJson (view current).data := by
  cases current with
  | none => rfl
  | some record => rfl

/-- Data that was stored once is stored again as it is. -/
theorem requireItems_ofJson («where» : String) (fields : Json.Fields) :
    requireItems «where» (PyValue.ofJson fields) = .ok fields := by
  induction fields with
  | nil => rfl
  | cons field fields ih =>
    obtain ⟨key, value⟩ := field
    have htail : requireItems «where» (fields.map fun field => (field.1, PyValue.json field.2)) =
        .ok fields := ih
    simp only [PyValue.ofJson, List.map_cons, requireItems, requireJsonValue, Except.ok_bind, htail]
    rfl

theorem newRecord_eq_ok {state : Option String} {data : PyValue.Fields} {expiresAt : Option Rat}
    {schemaVersion : Int} {record : FSMRecord}
    (h : newRecord state data expiresAt schemaVersion = .ok record) :
    record.state = state ∧ requireItems "FSMRecord.data" data = .ok record.data := by
  obtain ⟨data', hdata, hrecord⟩ := Except.bind_eq_ok.mp h
  rw [Except.pure_eq_ok] at hrecord
  rw [← hrecord]
  exact ⟨rfl, hdata⟩

theorem apply_of_replacement {call : Call} {current : Option FSMRecord} {replacement : FSMRecord}
    (h : call.replacement current = .ok replacement) :
    call.apply (view current) = .ok ⟨replacement.state, replacement.data⟩ := by
  obtain ⟨hstate, hdata⟩ := newRecord_eq_ok h
  have hold : current.bind FSMRecord.state = (view current).state := by cases current <;> rfl
  rw [currentData_eq] at hdata
  cases call with
  | updateData partialData =>
    dsimp only at hstate hdata
    rw [Call.apply, hdata, hstate, hold]
    rfl
  | setState state =>
    dsimp only at hstate hdata
    rw [requireItems_ofJson] at hdata
    rw [Call.apply, hstate, ← Except.ok.inj hdata]
    rfl
  | setData data =>
    dsimp only at hstate hdata
    rw [Call.apply, hdata, hstate, hold]
    rfl
  | finish =>
    dsimp only at hstate hdata
    rw [Call.apply, hstate, ← Except.ok.inj hdata]
    rfl

theorem answer_eq (call : Call) (current : Option FSMRecord) :
    call.answer (view current) = call.result current := by
  cases call with
  | updateData partialData => rw [Call.answer, Call.result, currentData_eq]
  | setState state => rfl
  | setData data => rfl
  | finish => rfl

/-! ## One step -/

theorem dropExpired_of_unexpired {now : Rat} {entry : Option FSMRecord} (h : Unexpired now entry) :
    dropExpired now entry = entry := by
  cases entry with
  | none => rfl
  | some record => rw [dropExpired, h record rfl, if_neg (by decide)]

/-- What a call knows. Before it writes: the record it has read is still stored, unless the revision
has moved on. -/
def Phase.Knows (call : Call) (entry : Option FSMRecord) : Phase → Prop
  | .probing => call = .finish
  | .writing revision replacement result => ∃ current, currentRevision current = revision ∧
      call.replacement current = .ok replacement ∧ call.result current = result ∧
      revision ≤ currentRevision entry ∧ (revision = currentRevision entry → current = entry)
  | _ => True

def Phase.effect : Phase → Option Result
  | .returned result => some result
  | _ => .none

/-- A step leaves the record alone, or writes the next revision. -/
def Moves (entry entry' : Option FSMRecord) : Prop :=
  entry' = entry ∨ currentRevision entry' = currentRevision entry + 1

theorem Phase.Knows.moves {call : Call} {entry entry' : Option FSMRecord} {phase : Phase}
    (h : phase.Knows call entry) (hmoves : Moves entry entry') : phase.Knows call entry' := by
  cases phase with
  | writing revision replacement result =>
    obtain ⟨current, hrevision, hreplacement, hresult, hle, hsame⟩ := h
    rcases hmoves with rfl | hnext
    · exact ⟨current, hrevision, hreplacement, hresult, hle, hsame⟩
    · refine ⟨current, hrevision, hreplacement, hresult, by omega, fun heq => ?_⟩
      omega
  | probing => exact h
  | reading => trivial
  | returned result => trivial
  | conflict error => trivial
  | typeError error => trivial

theorem Call.prepared_knows (call : Call) (entry : Option FSMRecord) :
    (call.prepared entry).Knows call entry := by
  unfold Call.prepared
  split
  · trivial
  · next replacement hreplacement =>
    exact ⟨entry, rfl, hreplacement, rfl, Int.le_refl _, fun _ => rfl⟩

theorem Call.conflicted_knows (call : Call) (error : FSMRecordConflict) (entry : Option FSMRecord) :
    (call.conflicted error).Knows call entry := by
  cases call <;> trivial

theorem Call.prepared_effect (call : Call) (entry : Option FSMRecord) :
    (call.prepared entry).effect = .none := by
  unfold Call.prepared
  split <;> rfl

theorem Call.conflicted_effect (call : Call) (error : FSMRecordConflict) :
    (call.conflicted error).effect = .none := by
  cases call <;> rfl

structure Stepped (call : Call) (phase : Phase) (entry : Option FSMRecord) (phase' : Phase)
    (entry' : Option FSMRecord) (result : Option Result) : Prop where
  moves : Moves entry entry'
  numbered : Numbered entry'
  knows : phase'.Knows call entry'
  silent : result = .none → view entry' = view entry ∧ phase'.effect = phase.effect
  effective : ∀ r, result = some r →
    Exec call (view entry) r (view entry') ∧ phase.effect = .none ∧ phase'.effect = some r

theorem stepped_write {call : Call} {revision : Int} {replacement : FSMRecord} {result : Result}
    {now now' : Rat} {entry : Option FSMRecord} (hnumbered : Numbered entry)
    (hfresh : Unexpired now entry)
    (hknows : (Phase.writing revision replacement result).Knows call entry) :
    Stepped call (.writing revision replacement result) entry
      ((Phase.writing revision replacement result).step call now now' entry).2.1
      ((Phase.writing revision replacement result).step call now now' entry).1
      ((Phase.writing revision replacement result).step call now now' entry).2.2 := by
  obtain ⟨current, hrevision, hreplacement, hresult, hle, hsame⟩ := hknows
  have hdrop := dropExpired_of_unexpired hfresh
  simp only [Phase.step]
  by_cases hmatch : currentRevision entry = revision
  · -- the record that was read is still there
    obtain rfl := hsame hmatch.symm
    rw [compareAndSet_of_eq (by rw [hdrop]; exact hmatch)]
    have hnonneg := hnumbered.currentRevision_nonneg
    refine ⟨.inr ?_, ?_, trivial, nofun, ?_⟩
    · rw [hmatch]
      rfl
    · rintro record ⟨⟩
      show 1 ≤ revision + 1
      omega
    · rintro r ⟨⟩
      have happly := apply_of_replacement hreplacement
      exact ⟨⟨happly, (answer_eq call current).trans hresult⟩, rfl, rfl⟩
  · rw [compareAndSet_of_ne (by rw [hdrop]; exact hmatch), hdrop]
    exact ⟨.inl rfl, hnumbered, call.conflicted_knows _ entry,
      fun _ => ⟨rfl, call.conflicted_effect _⟩, nofun⟩

theorem Phase.stepped {call : Call} {phase : Phase} {now now' : Rat} {entry : Option FSMRecord}
    (hnumbered : Numbered entry) (hfresh : Unexpired now entry) (hknows : phase.Knows call entry) :
    Stepped call phase entry (phase.step call now now' entry).2.1
      (phase.step call now now' entry).1 (phase.step call now now' entry).2.2 := by
  have hdrop := dropExpired_of_unexpired hfresh
  have hidle : Moves entry entry := .inl rfl
  cases phase with
  | probing =>
    obtain rfl : call = .finish := hknows
    simp only [Phase.step, getRecord, hdrop]
    cases entry with
    | none => exact ⟨hidle, hnumbered, trivial, nofun, by rintro r ⟨⟩; exact ⟨⟨rfl, rfl⟩, rfl, rfl⟩⟩
    | some record => exact ⟨hidle, hnumbered, trivial, fun _ => ⟨rfl, rfl⟩, nofun⟩
  | reading =>
    simp only [Phase.step, getRecord, hdrop]
    exact ⟨hidle, hnumbered, call.prepared_knows entry, fun _ => ⟨rfl, call.prepared_effect entry⟩,
      nofun⟩
  | writing revision replacement result => exact stepped_write hnumbered hfresh hknows
  | returned result => exact ⟨hidle, hnumbered, trivial, fun _ => ⟨rfl, rfl⟩, nofun⟩
  | conflict error => exact ⟨hidle, hnumbered, trivial, fun _ => ⟨rfl, rfl⟩, nofun⟩
  | typeError error => exact ⟨hidle, hnumbered, trivial, fun _ => ⟨rfl, rfl⟩, nofun⟩

theorem stepped_of_step {call : Call} {phase phase' : Phase} {now now' : Rat}
    {entry entry' : Option FSMRecord} {result : Option Result} (hnumbered : Numbered entry)
    (hfresh : Unexpired now entry) (hknows : phase.Knows call entry)
    (hstep : phase.step call now now' entry = (entry', phase', result)) :
    Stepped call phase entry phase' entry' result := by
  have hstepped := @Phase.stepped call phase now now' entry hnumbered hfresh hknows
  rwa [hstep] at hstepped

/-! ## Every interleaving -/

theorem Call.start_knows (call : Call) (entry : Option FSMRecord) : call.start.Knows call entry := by
  cases call <;> trivial

theorem Call.start_effect (call : Call) : call.start.effect = .none := by
  cases call <;> rfl

/-- The record keeps the state and the data of the calls that have taken effect. -/
def simulation : Simulation adapter Exec where
  view := view
  inv := Numbered
  knows := fun _ call phase entry => phase.Knows call entry
  effect := Phase.effect
  start := fun _ call entry _ => call.start_knows entry
  start_effect := Call.start_effect
  kept := by
    rintro _ call phase entry phase' entry' result hnumbered hknows ⟨now, now', hfresh, hstep⟩
    have hstepped := stepped_of_step hnumbered hfresh hknows hstep
    exact ⟨hstepped.numbered, hstepped.knows⟩
  stable := by
    rintro _ call phase entry phase' entry' result hnumbered hknows ⟨now, now', hfresh, hstep⟩ j y q -
      hother
    exact hother.moves (stepped_of_step hnumbered hfresh hknows hstep).moves
  silent := by
    rintro _ call phase entry phase' entry' hnumbered hknows ⟨now, now', hfresh, hstep⟩
    exact (stepped_of_step hnumbered hfresh hknows hstep).silent rfl
  effective := by
    rintro _ call phase entry phase' entry' result hnumbered hknows ⟨now, now', hfresh, hstep⟩
    exact (stepped_of_step hnumbered hfresh hknows hstep).effective result rfl

abbrev AdapterState := Concurrency.State Call Phase (Option FSMRecord) Result

/-- **The adapter loses nothing.** In every interleaving, on a key with any past whose record does not
expire: the stored state and data are those of the calls that have returned, applied one after the
other in the order of their writes, with the results they have returned; and a call that has raised
is not among them. -/
theorem adapter_linearizes (past : List Fsm.Call) (s : AdapterState)
    (hs : adapter.Reach (runAll none past) s) :
    Replays Exec (view (runAll none past)) s.log (view s.shared) ∧ (s.log.map Prod.fst).Nodup ∧
      (∀ i call result, (i, call, result) ∈ s.log ↔
        s.clients[i]? = some (call, .returned result)) ∧
      (∀ i call error, s.clients[i]? = some (call, .conflict error) → i ∉ s.log.map Prod.fst) ∧
      (∀ i call error, s.clients[i]? = some (call, .typeError error) → i ∉ s.log.map Prod.fst) := by
  have hnone : Numbered none := nofun
  obtain ⟨hreplays, hnodup, hlog⟩ := simulation.linearizes (numbered_runAll past hnone) hs
  have hreturned : ∀ i call result, (i, call, result) ∈ s.log ↔
      s.clients[i]? = some (call, .returned result) := by
    intro i call result
    rw [hlog]
    constructor
    · rintro ⟨phase, hi, heffect⟩
      cases phase with
      | returned result' =>
        obtain rfl := Option.some_inj.mp heffect
        exact hi
      | probing => cases heffect
      | reading => cases heffect
      | writing revision replacement result => cases heffect
      | conflict error => cases heffect
      | typeError error => cases heffect
    · exact fun hi => ⟨_, hi, rfl⟩
  -- a client at another phase has no entry
  have hraised : ∀ i call phase, s.clients[i]? = some (call, phase) →
      (∀ result, phase ≠ .returned result) → i ∉ s.log.map Prod.fst := by
    intro i call phase hi hother hmem
    obtain ⟨⟨j, call', result⟩, hentry, rfl⟩ := List.mem_map.mp hmem
    have hj := (hreturned j call' result).mp hentry
    rw [hi] at hj
    exact hother result (Prod.mk.inj (Option.some_inj.mp hj)).2
  exact ⟨hreplays, hnodup, hreturned, fun i call error hi => hraised i call _ hi (fun _ => nofun),
    fun i call error hi => hraised i call _ hi (fun _ => nofun)⟩

/-- Client `i` makes its next step at time `now`. -/
def advance (now : Rat) (i : Nat) (s : AdapterState) : AdapterState :=
  match s.clients[i]? with
  | none => s
  | some (call, phase) =>
    ⟨(phase.step call now now s.shared).1, s.clients.set i (call, (phase.step call now now s.shared).2.1),
      s.log ++ ((phase.step call now now s.shared).2.2.map fun r => (i, call, r)).toList⟩

theorem advance_reach {entry : Option FSMRecord} {s : AdapterState} (hs : adapter.Reach entry s)
    {now : Rat} (i : Nat) (hfresh : Unexpired now s.shared) :
    adapter.Reach entry (advance now i s) := by
  unfold advance
  split
  · exact hs
  · next call phase hi => exact hs.step hi ⟨now, now, hfresh, rfl⟩

/-- Two updates read the key before either of them writes; the second one to write reads again. -/
def twoUpdates : AdapterState :=
  let called : AdapterState := ⟨none, [(.updateData [("a", .json (.int 1))], .reading),
    (.updateData [("b", .json (.int 2))], .reading)], []⟩
  [0, 1, 1, 0, 0, 0].foldl (fun s i => advance 0 i s) called

theorem unexpired_of_none {entry : Option FSMRecord} (now : Rat)
    (h : entry.bind FSMRecord.expiresAt = .none) : Unexpired now entry := by
  rintro record rfl
  have hnone : record.expiresAt = .none := h
  rw [expired, hnone]

theorem twoUpdates_reach : adapter.Reach none twoUpdates := by
  have hcalled := (@Machine.Reach.init _ _ _ _ adapter none).call
    (.updateData [("a", .json (.int 1))]) |>.call (.updateData [("b", .json (.int 2))])
  have hread := advance_reach hcalled 0 (unexpired_of_none 0 rfl)
  have hread' := advance_reach hread 1 (unexpired_of_none 0 rfl)
  have hwritten := advance_reach hread' 1 (unexpired_of_none 0 rfl)
  have hconflict := advance_reach hwritten 0 (unexpired_of_none 0 rfl)
  have hagain := advance_reach hconflict 0 (unexpired_of_none 0 rfl)
  exact advance_reach hagain 0 (unexpired_of_none 0 rfl)

/-- Both updates are in the data. -/
theorem twoUpdates_kept :
    (view twoUpdates.shared).data = [("b", .int 2), ("a", .int 1)] ∧
      Replays Exec (view none) twoUpdates.log (view twoUpdates.shared) :=
  ⟨rfl, (adapter_linearizes [] twoUpdates twoUpdates_reach).1⟩

end Chattice.Fsm.Adapter
