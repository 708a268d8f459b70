import Chattice.Asyncio.Calls
import Chattice.Dispatcher.FeedUpdate
import Chattice.Fsm.Storage

/-!
# `FSMContext`, `State` and `StateFilter`

The handlers of an event reach the storage through the `FSMContext` of the event, which is bound to the key
of the event's conversation. What the application does is a coroutine over the methods of that context, and
over whatever else it awaits; a callable's own exceptions are among its results, so nothing is raised past
the routing runtime.

* `FSMContext.run` : the same coroutine over the calls of the storage;
* `stateFilter` : the filter that asks the context for the current state;
* `FSMContext.run_within` : a context calls the storage on its own key only.
-/

namespace Chattice.Fsm

open Asyncio Asyncio.Coro
open Routing (Exc Raised Filter Context Routed)

/-! ## States -/

/-- A named workflow state: an explicit key, or the names the `StatesGroup` has bound it to. -/
structure State where
  explicit : Option String := none
  group : Option String := none
  name : Option String := none

/-- `RuntimeError("Unbound State: it must be a StatesGroup member")` -/
def unboundState : Exc where
  classes := ["RuntimeError", "Exception"]
  message := [.text "Unbound State: it must be a StatesGroup member"]

/-- `State.state` -/
def State.state (s : State) : Except Exc String :=
  match s.explicit with
  | some key => .ok key
  | none =>
    match s.group, s.name with
    | some group, some name => .ok (group ++ ":" ++ name)
    | _, _ => .error unboundState

/-- `str | State | None` -/
inductive StateArg where
  | cleared
  | text (key : String)
  | member (state : State)

/-- What the storage gets: `if isinstance(state, State): state = state.state`. -/
def StateArg.key : StateArg → Except Exc (Option String)
  | .cleared => .ok none
  | .text key => .ok (some key)
  | .member state => state.state.map some

/-! ## What handlers await -/

/-- What an application awaits besides its FSM context, and what that returns. -/
structure Outside where
  Call : Type
  Res : Call → Type

/-- The methods of `FSMContext`. -/
inductive ContextCall where
  | getState
  | setState (state : StateArg)
  | getData
  | setData (data : PyValue.Fields)
  | updateData (partialData : PyValue.Fields)
  | finish

inductive Awaited (O : Outside) where
  | context (call : ContextCall)
  | outside (call : O.Call)

abbrev Awaited.Res {O : Outside} : Awaited O → Type
  | .context _ => Except Raised StorageResult
  | .outside call => Except Raised (O.Res call)

abbrev ctxSig (O : Outside) : Sig where
  Call := Awaited O
  Res := Awaited.Res
  Eff := Empty
  Exc := Empty

abbrev Handling (O : Outside) := Coro (ctxSig O)

def awaitContext {O : Outside} (call : ContextCall) : Handling O (Except Raised StorageResult) :=
  Coro.call (S := ctxSig O) (.context call)

/-- The calls of the storage, with their keys. -/
inductive StorageAwaited (O : Outside) where
  | storage (key : StorageKey) (call : StorageCall PyValue.Fields)
  | outside (call : O.Call)

abbrev StorageAwaited.Res {O : Outside} : StorageAwaited O → Type
  | .storage .. => Except Raised StorageResult
  | .outside call => Except Raised (O.Res call)

/-- `E` are the reports of the tasks. -/
abbrev fsmSig (O : Outside) (E : Type) : Sig where
  Call := StorageAwaited O
  Res := StorageAwaited.Res
  Eff := E
  Exc := Empty

variable {O : Outside} {E α V : Type}

/-! ## The context of an event -/

/-- Bound to the storage and the key of one event. -/
structure FSMContext where
  key : Option StorageKey

/-- `FSMError` of `_require_key` -/
def fsmError : Exc where
  classes := ["FSMError", "RuntimeError", "Exception"]
  message := [.text ("Cannot derive an FSM storage key for this event " ++
    "(missing user/space refs for the configured strategy)")]

namespace FSMContext

def storage (key : StorageKey) (call : StorageCall PyValue.Fields) :
    Coro (fsmSig O E) (Except Raised StorageResult) :=
  Coro.call (S := fsmSig O E) (.storage key call)

def read (ctx : FSMContext) (call : StorageCall PyValue.Fields) (missing : StorageResult) :
    Coro (fsmSig O E) (Except Raised StorageResult) :=
  match ctx.key with
  | none => done (.ret (.ok missing))
  | some key => storage key call

/-- A method that writes needs a key: `self._require_key()`. -/
def write (ctx : FSMContext) (call : StorageCall PyValue.Fields) :
    Coro (fsmSig O E) (Except Raised StorageResult) :=
  match ctx.key with
  | none => done (.ret (.error (.exception fsmError)))
  | some key => storage key call

def setState (ctx : FSMContext) (state : StateArg) : Coro (fsmSig O E) (Except Raised StorageResult) :=
  match state.key with
  | .error e => done (.ret (.error (.exception e)))
  | .ok state => ctx.write (.setState state)

def call (ctx : FSMContext) : ContextCall → Coro (fsmSig O E) (Except Raised StorageResult)
  | .getState => ctx.read .getState (.state none)
  | .setState state => ctx.setState state
  | .getData => ctx.read .getData (.data [])
  | .setData data => ctx.write (.setData data)
  | .updateData partialData => ctx.write (.updateData partialData)
  | .finish => ctx.write .finish

/-- What the application does, with the calls of its context made on the storage. -/
def run (ctx : FSMContext) : Handling O α → Coro (fsmSig O E) α
  | .done o => .done o
  | .emit e _ => nomatch e
  | .await (.context call) next => (ctx.call call).andThen fun o => ctx.run (next o)
  | .await (.outside call) next => .await (.outside call) fun o => ctx.run (next o)

end FSMContext

/-! ## `StateFilter` -/

/-- The keys of `StateFilter(*states)`. -/
def StateFilter.keys (states : List State) : Except Exc (List String) := states.mapM State.state

/-- `StateFilter.__call__`, where `isContext` is `isinstance(value, FSMContext)`. -/
def stateFilter (isContext : V → Bool) (keys : List String) : Filter (Handling O) Routed V where
  repr := "StateFilter"
  call := fun _ data =>
    match data.lookup "state" with
    | none => pure (.ok (.bool false))
    | some value =>
      if isContext value then do
        match ← awaitContext .getState with
        | .error raised => pure (.error raised)
        | .ok (.state (some current)) => pure (.ok (.bool (keys.isEmpty || keys.contains current)))
        | .ok _ => pure (.ok (.bool false))
      else pure (.ok (.bool false))

/-! ## A context keeps to its key -/

/-- The key that a call is made on. -/
def StorageAwaited.key : StorageAwaited O → Option StorageKey
  | .storage key _ => some key
  | .outside _ => none

namespace FSMContext

variable {ctx : FSMContext}

/-- A call outside the storage, or on the key of the context. -/
def Own (ctx : FSMContext) (c : (fsmSig O E).Call) : Prop :=
  StorageAwaited.key c = none ∨ StorageAwaited.key c = ctx.key

theorem storage_within {key : StorageKey} (h : ctx.key = some key) (call : StorageCall PyValue.Fields) :
    (storage key call : Coro (fsmSig O E) _).Within ctx.Own :=
  within_call (.inr h.symm)

theorem read_within (call : StorageCall PyValue.Fields) (missing : StorageResult) :
    (ctx.read call missing : Coro (fsmSig O E) _).Within ctx.Own := by
  unfold read
  split
  · exact within_done
  · next h => exact storage_within h call

theorem write_within (call : StorageCall PyValue.Fields) :
    (ctx.write call : Coro (fsmSig O E) _).Within ctx.Own := by
  unfold write
  split
  · exact within_done
  · next h => exact storage_within h call

theorem setState_within (state : StateArg) :
    (ctx.setState state : Coro (fsmSig O E) _).Within ctx.Own := by
  unfold setState
  split
  · exact within_done
  · exact write_within _

theorem call_within (call : ContextCall) : (ctx.call call : Coro (fsmSig O E) _).Within ctx.Own := by
  cases call with
  | getState => exact read_within _ _
  | setState state => exact setState_within state
  | getData => exact read_within _ _
  | setData data => exact write_within _
  | updateData partialData => exact write_within _
  | finish => exact write_within _

/-- What the application does reaches the storage on the key of its context only. -/
theorem run_within (c : Handling O α) : (ctx.run c : Coro (fsmSig O E) α).Within ctx.Own := by
  induction c with
  | done o => exact within_done
  | emit e next ih => exact nomatch e
  | await c next ih =>
    cases c with
    | context call => exact within_andThen (call_within call) fun o => ih o
    | outside call =>
      rintro k (rfl | ⟨o, ho⟩)
      · exact .inl rfl
      · exact ih o k ho

end FSMContext

end Chattice.Fsm
