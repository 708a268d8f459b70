import Chattice.Asyncio.Own
import Chattice.Client.Bot

/-!
# The life of a `Bot`: shared initialization and `close`

Callers that want credentials or a client share one task for each of the four results; a slot of the
`Bot` holds the task. `close` awaits the tasks it finds in the slots and closes the transports of the
clients.

A call of this module is a step of a coroutine that runs without interruption and reads the `Bot`
(`request`, `start`, `beginClose`, `clients`), or an await (`join`, `provider`, `closeTransport`). The
last step of a shared task is an effect, as no other coroutine runs between the end of its await and it.

* `getAsync`, `runTask`, `close` : the coroutines; `botSystem` : the runs of one `Bot`;
* `Shared.Le` : what never changes back.
-/

namespace Chattice.Lifecycle

open Asyncio Asyncio.Coro

/-! ## The Bot -/

/-- What `Bot.__init__` keeps: the credentials, whether it has a provider for them and one for the USER
identity, and whether a transport is injected. -/
structure Config where
  credentials : Option Credentials
  hasProvider : Bool
  hasUserProvider : Bool
  hasTransport : Bool

/-- The exceptions: `close` tells only `ChatAPIError` apart. -/
inductive Exc where
  | chatApiError (message : String)
  | other (className message : String)
  deriving DecidableEq

def Exc.isChatApiError : Exc → Bool
  | .chatApiError _ => true
  | .other .. => false

/-- The slots for shared tasks: `_credential_task`, `_user_credential_task`, `_init_task`,
`_user_init_task`. -/
inductive Kind where
  | credentials | userCredentials | client | userClient
  deriving DecidableEq

/-- A transport: the injected one, or the one made for the client of a task. -/
inductive Transport where
  | injected
  | grpc (kind : Kind) (task : Nat)
  deriving DecidableEq

/-- What a shared task returns; a client is known by its transport. -/
def Kind.Val : Kind → Type
  | .credentials | .userCredentials => Option Credentials
  | .client | .userClient => Transport

/-- The state of a shared task: its outcome when it has ended. -/
abbrev Status (kind : Kind) := Option (Except Exc kind.Val)

/-- The attributes of the `Bot`, all tasks it has created with their outcomes, and, oldest first, the
transports of the clients it has published. -/
structure Shared where
  closed : Bool
  slot : Kind → Option Nat
  tasks : (kind : Kind) → List (Status kind)
  resolved : Option (Option Credentials)
  resolvedUser : Option (Option Credentials)
  client : Option Transport
  userClient : Option Transport
  published : List Transport

/-- A new `Bot`. -/
def Shared.new : Shared where
  closed := false
  slot _ := none
  tasks _ := []
  resolved := none
  resolvedUser := none
  client := none
  userClient := none
  published := []

/-- `ChatAPIError("Bot is closed; create a new instance")` -/
def closedError : Exc := .chatApiError "Bot is closed; create a new instance"

/-- The task in the slot, or a new one. -/
def getTask (kind : Kind) (s : Shared) : Nat × Shared :=
  match s.slot kind with
  | some task => (task, s)
  | none =>
    ((s.tasks kind).length, { s with
      slot := Function.update s.slot kind (some (s.tasks kind).length)
      tasks := Function.update s.tasks kind (s.tasks kind ++ [none]) })

/-- `if self._init_task is task: self._init_task = None`, for each of the slots. -/
def drop (kind : Kind) (task : Nat) (s : Shared) : Shared :=
  if s.slot kind = some task then { s with slot := Function.update s.slot kind none } else s

/-- The client that `_get_client_async` and `_get_user_client_async` return at once. -/
def cached : (kind : Kind) → Shared → Option kind.Val
  | .client, s => s.client
  | .userClient, s => s.userClient
  | .credentials, _ | .userCredentials, _ => none

/-- The first step of a caller: the cached client, or the task to wait for. -/
def request (kind : Kind) (s : Shared) : (kind.Val ⊕ Nat) × Shared :=
  match cached kind s with
  | some value => (.inl value, s)
  | none => (.inr (getTask kind s).1, (getTask kind s).2)

/-- What a shared task goes on with: a value, the credential provider, or another shared task. -/
inductive Next where
  | value (credentials : Option Credentials)
  | provide
  | wait (task : Nat)
  deriving DecidableEq

/-- The first step of a shared task: of `_resolve_credentials_once`, `_resolve_user_credentials_once`,
`_initialize_client`, `_initialize_user_client`. -/
def start (config : Config) (kind : Kind) (s : Shared) : Except Exc Next × Shared :=
  if s.closed then (.error closedError, s)
  else
    match kind with
    | .credentials =>
      match s.resolved with
      | some credentials => (.ok (.value credentials), s)
      | none => (.ok (if config.hasProvider then .provide else .value config.credentials), s)
    | .userCredentials =>
      match s.resolvedUser with
      | some credentials => (.ok (.value credentials), s)
      | none =>
        if config.hasUserProvider then (.ok .provide, s)
        else (.ok (.wait (getTask .credentials s).1), (getTask .credentials s).2)
    | .client => (.ok (.wait (getTask .credentials s).1), (getTask .credentials s).2)
    | .userClient => (.ok (.wait (getTask .userCredentials s).1), (getTask .userCredentials s).2)

/-- The outcome of a shared task; a task that has ended keeps its own. -/
def settle (kind : Kind) (task : Nat) (o : Except Exc kind.Val) (s : Shared) : Shared :=
  { s with
    tasks := Function.update s.tasks kind
      ((s.tasks kind).modify task fun status => some (status.getD o)) }

/-- `self._client = client` -/
def publish (transport : Transport) (s : Shared) : Shared :=
  { s with client := some transport, published := s.published ++ [transport] }

/-- `self._user_client = client` -/
def publishUser (transport : Transport) (s : Shared) : Shared :=
  { s with userClient := some transport, published := s.published ++ [transport] }

/-- `_build_client` -/
def buildClient (config : Config) (task : Nat) (credentials : Option Credentials) (s : Shared) :
    Except Exc Transport × Shared :=
  if config.hasTransport then (.ok .injected, publish .injected s)
  else
    match credentials with
    | none =>
      (.error (.chatApiError ("Bot has no credentials; pass google.auth credentials " ++
        "or a credentials_provider to Bot(...)")), s)
    | some _ => (.ok (.grpc .client task), publish (.grpc .client task) s)

/-- `_build_user_client` -/
def buildUserClient (config : Config) (task : Nat) (s : Shared) : Transport × Shared :=
  if config.hasTransport then (.injected, publishUser .injected s)
  else (.grpc .userClient task, publishUser (.grpc .userClient task) s)

/-- `CapabilityNotSupported("Sending message attachments requires USER authentication …")` -/
def noUserCredentials : Exc :=
  .other "CapabilityNotSupported" ("Sending message attachments requires USER authentication for " ++
    "both media.upload and messages.create. Configure " ++
    "user_credentials_provider=... — UserCredentialsProvider, or " ++
    "DelegatedUserCredentialsProvider for domain-wide delegation.")

/-- The last step of `_initialize_client`. -/
def finishClient (config : Config) (task : Nat) (credentials : Option Credentials) (s : Shared) :
    Shared :=
  if s.closed then settle .client task (.error closedError) s
  else
    settle .client task (buildClient config task credentials s).1
      (buildClient config task credentials s).2

/-- The last step of `_initialize_user_client`. -/
def finishUserClient (config : Config) (task : Nat) (credentials : Option Credentials) (s : Shared) :
    Shared :=
  if credentials.isNone then settle .userClient task (.error noUserCredentials) s
  else if s.closed then settle .userClient task (.error closedError) s
  else
    settle .userClient task (.ok (buildUserClient config task s).1) (buildUserClient config task s).2

/-- The last step of a shared task, from the credentials that its awaits have given it. -/
def finish (config : Config) (kind : Kind) (task : Nat) (credentials : Option Credentials)
    (s : Shared) : Shared :=
  match kind with
  | .credentials =>
    settle .credentials task (.ok credentials) { s with resolved := some credentials }
  | .userCredentials =>
    settle .userCredentials task (.ok credentials) { s with resolvedUser := some credentials }
  | .client => finishClient config task credentials s
  | .userClient => finishUserClient config task credentials s

/-- The first step of `close`: the tasks to await, or nothing where the `Bot` is closed already. -/
def beginClose (s : Shared) : Option (List (Kind × Nat)) × Shared :=
  if s.closed then (none, s)
  else
    (some ([.credentials, .userCredentials, .client, .userClient].filterMap fun kind =>
      (s.slot kind).map fun task => (kind, task)), { s with closed := true })

/-! ## The coroutines -/

/-- The calls of the coroutines; `waiter` says whether the await may be cancelled, as that of a caller
may. -/
inductive Call where
  | request (kind : Kind)
  | start (kind : Kind)
  | join (kind : Kind) (task : Nat) (waiter : Bool)
  | provider (kind : Kind)
  | beginClose
  | clients
  | closeTransport (transport : Transport)
  deriving DecidableEq

def Call.Res : Call → Type
  | .request kind => kind.Val ⊕ Nat
  | .start _ => Next
  | .join kind _ _ => kind.Val
  | .provider _ => Option Credentials
  | .beginClose => Option (List (Kind × Nat))
  | .clients => List (Option Transport)
  | .closeTransport _ => Unit

/-- What a coroutine does without suspending; the last two say how a caller and `close` have ended. -/
inductive Effect where
  | drop (kind : Kind) (task : Nat)
  | finish (kind : Kind) (task : Nat) (credentials : Option Credentials)
  | fail (kind : Kind) (task : Nat) (e : Exc)
  | answered (kind : Kind) (o : Outcome Exc kind.Val)
  | closed (o : Outcome Exc Unit)

abbrev sig : Sig where
  Call := Call
  Res := Call.Res
  Eff := Effect
  Exc := Exc

abbrev awaitCall (c : Call) : Coro sig c.Res := call (S := sig) c

/-- `await asyncio.shield(task)`: a waiter that sees the task fail drops it from its slot. -/
def shielded (kind : Kind) (task : Nat) (waiter : Bool) : Coro sig kind.Val :=
  tryElse (awaitCall (.join kind task waiter))
    (fun e => do
      act (S := sig) (.drop kind task)
      raise e)
    pure

/-- `_resolve_credentials_async`, `_resolve_user_credentials_async`, `_get_client_async` and
`_get_user_client_async`. -/
def getAsync (kind : Kind) : Coro sig kind.Val := do
  match ← awaitCall (.request kind) with
  | .inl value => pure value
  | .inr task => shielded kind task true

/-- `_resolve_credentials_once`, `_resolve_user_credentials_once`, `_initialize_client` and
`_initialize_user_client`, up to their last step. -/
def runTask (kind : Kind) : Coro sig (Option Credentials) := do
  match ← awaitCall (.start kind) with
  | .value credentials => pure credentials
  | .provide => awaitCall (.provider kind)
  | .wait task =>
    match kind with
    | .userCredentials => do
      let single ← shielded .credentials task false
      pure (if Client.classify single = some .user then single else none)
    | .userClient => shielded .userCredentials task false
    | .credentials | .client => shielded .credentials task false

def sharedTask (kind : Kind) (task : Nat) : Coro sig Unit :=
  (runTask kind).andThen fun
    | .ret credentials => act (S := sig) (.finish kind task credentials)
    | .raised e => act (S := sig) (.fail kind task e)
    | .cancelled => cancel

/-- The loop of `close` over the tasks: a `ChatAPIError` is its own doing, another exception ends it. -/
def awaitTasks : List (Kind × Nat) → Coro sig Unit
  | [] => pure ()
  | (kind, task) :: rest =>
    tryElse (awaitCall (.join kind task false))
      (fun e => if e.isChatApiError then awaitTasks rest else raise e)
      fun _ => awaitTasks rest

/-- The loop of `close` over the clients, with the transports it has closed. -/
def closeTransports : List Transport → List (Option Transport) → Coro sig Unit
  | _, [] => pure ()
  | closed, none :: rest => closeTransports closed rest
  | closed, some transport :: rest =>
    if transport ∈ closed then closeTransports closed rest
    else do
      awaitCall (.closeTransport transport)
      closeTransports (transport :: closed) rest

def close : Coro sig Unit := do
  match ← awaitCall .beginClose with
  | none => pure ()
  | some tasks => do
    awaitTasks tasks
    let clients ← awaitCall .clients
    closeTransports [] clients

/-! ## The runs -/

/-- The tasks of the loop: numbered callers, the shared tasks, one `close`. -/
inductive Job where
  | caller (number : Nat) (kind : Kind)
  | task (kind : Kind) (number : Nat)
  | close
  deriving DecidableEq

def body : Job → Coro sig Unit
  | .caller _ kind => (getAsync kind).andThen fun o => act (S := sig) (.answered kind o)
  | .task kind number => sharedTask kind number
  | .close => close.andThen fun o => act (S := sig) (.closed o)

/-- `return` or `raise`. -/
def outcome {α : Type} : Except Exc α → Outcome Exc α
  | .ok a => .ret a
  | .error e => .raised e

/-- What a call ends with, and the `Bot` it leaves. -/
def Answer (config : Config) : (c : Call) → Shared → Outcome Exc c.Res → Shared → Prop
  | .request kind, s, r, s' =>
    (r = .ret (request kind s).1 ∧ s' = (request kind s).2) ∨ (r = .cancelled ∧ s' = s)
  | .start kind, s, r, s' => r = outcome (start config kind s).1 ∧ s' = (start config kind s).2
  | .join kind task waiter, s, r, s' =>
    ((∃ o, (s.tasks kind)[task]? = some (some o) ∧ r = outcome o) ∨ (waiter = true ∧ r = .cancelled)) ∧
      s' = s
  | .provider _, s, r, s' => r ≠ .cancelled ∧ s' = s
  | .beginClose, s, r, s' => r = .ret (beginClose s).1 ∧ s' = (beginClose s).2
  | .clients, s, r, s' => r = .ret [s.client, s.userClient] ∧ s' = s
  | .closeTransport _, s, r, s' => r = .ret () ∧ s' = s

/-- What an effect does to the `Bot`. -/
def perform (config : Config) : Effect → Shared → Shared
  | .drop kind task, s => drop kind task s
  | .finish kind task credentials, s => finish config kind task credentials s
  | .fail kind task e, s => settle kind task (.error e) s
  | .answered .., s => s
  | .closed _, s => s

abbrev botWorld (config : Config) : World sig Shared where
  act := perform config
  Answer := Answer config

abbrev BotPool := Pool sig Job Shared

abbrev BotHistory := History sig Job Shared

abbrev BotLog := List (Entry sig Job Shared)

/-- Callers come at any time, a shared task runs once it has been created. -/
def Job.created (s : Shared) : Job → Bool
  | .task kind number => number < (s.tasks kind).length
  | .caller .. | .close => true

/-- The runs of one `Bot`. -/
def botSystem (config : Config) : System sig Job Shared where
  world := botWorld config
  body := body
  Init := fun s => s = .new
  Env := fun _ _ => False
  Admits := fun p x => x ∉ p.jobs ∧ x.created p.hist.state = true

end Chattice.Lifecycle
