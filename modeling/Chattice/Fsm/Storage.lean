import Chattice.Data.Keyed
import Chattice.Events.Base
import Chattice.Python.Value

/-!
# `StorageKey` and `MemoryStorage`

The key a state machine keeps its state under, and the in-process storage. Every method of
`MemoryStorage` takes the lock of its key and does not suspend while it holds it, so a call is one
step on the entry of its key in `_records`.
-/

namespace Chattice.Fsm

structure StorageKey where
  user : Option String
  space : Option String
  thread : Option String
  deriving DecidableEq, Repr

inductive FSMStrategy where
  | userInSpace | user | space
  deriving DecidableEq, Repr

/-- `StorageKey.build` -/
def StorageKey.build (event : Event) (strategy : FSMStrategy) : Option StorageKey :=
  let user := event.actor.bind UserRef.name
  let space := event.space.bind SpaceRef.name
  let thread := event.thread.bind ThreadRef.name
  match strategy with
  | .userInSpace =>
    match user, space with
    | some user, some space => some ⟨some user, some space, thread⟩
    | _, _ => none
  | .user =>
    match user with
    | some user => some ⟨some user, none, none⟩
    | none => none
  | .space =>
    match space with
    | some space => some ⟨none, some space, none⟩
    | none => none

/-- A call of the six-method storage contract on a key, with data of type `D`. -/
inductive StorageCall (D : Type) where
  | getState
  | setState (state : Option String)
  | getData
  | setData (data : D)
  | updateData (partialData : D)
  | finish

def StorageCall.map {D D' : Type} (f : D → D') : StorageCall D → StorageCall D'
  | .getState => .getState
  | .setState state => .setState state
  | .getData => .getData
  | .setData data => .setData (f data)
  | .updateData partialData => .updateData (f partialData)
  | .finish => .finish

inductive StorageResult where
  | none
  | state (state : Option String)
  | data (data : PyValue.Fields)

namespace MemoryStorage

/-- `_Record` -/
structure Record where
  state : Option String := none
  data : PyValue.Fields := []

/-- `_record` -/
def record (entry : Option Record) : Record := entry.getD {}

/-- A call on the entry of its key: the entry it leaves, and its result. -/
def call (entry : Option Record) : StorageCall PyValue.Fields → Option Record × StorageResult
  | .getState => (entry, .state (entry.bind Record.state))
  | .setState state =>
    if state = none ∧ entry.isNone then (entry, .none)
    else (some { record entry with state := state }, .none)
  | .getData =>
    match entry with
    | some record => (entry, .data record.data)
    | none => (entry, .data [])
  | .setData data => (some { record entry with data := data }, .none)
  | .updateData partialData =>
    let data := PyValue.update (record entry).data partialData
    (some { record entry with data := data }, .data data)
  | .finish => (none, .none)

end MemoryStorage

end Chattice.Fsm
