import Chattice.Asyncio.Coro
import Chattice.Events.Base
import Chattice.Idempotency.Memory

/-!
# `PubSubPullRunner._handle`: one delivery

`handle` is the coroutine the runner schedules for one delivery: claim, then ACK (`COMPLETED`), NACK
(`ACTIVE`) or process (`FIRST`). `process` is the `try` / `except CancelledError` /
`except Exception` / `finally` block; `failDelivery` is its `except Exception` branch. The awaited
calls are those of the source; log records are left out. Handler results are an arbitrary type, only
`_answer` looks at them.
-/

namespace Chattice.PubsubRunner

open Asyncio Asyncio.Coro
open Idempotency (ClaimResult)

/-- An exception as the runner sees it: `isinstance(error, CapabilityNotSupported)`,
`type(error).__name__` and `str(error)`. -/
structure Exc where
  capabilityNotSupported : Bool
  typeName : String
  str : String
  deriving DecidableEq, Repr

inductive HookName where
  | beforeOutbound | afterOutbound | deliveryAcked | deliveryNacked
  deriving DecidableEq, Repr

/-- `message.data` as the subscriber library delivers it. -/
inductive MessageData where
  | bytes (data : List UInt8)
  | text (data : String)
  | other
  deriving DecidableEq, Repr

/-- A delivery. Pub/Sub sets `delivery_attempt` only under a dead-letter policy. -/
structure Message where
  messageId : String
  data : MessageData
  deliveryAttempt : Option Int
  deriving DecidableEq, Repr

/-- What `PubSubPullRunner.__init__` keeps. `hooks` says which methods the optional
observability object has. -/
structure Runner where
  subscription : String
  hasBot : Bool
  maxConcurrency : Nat
  /-- "max_concurrency must be >= 1" -/
  maxConcurrency_pos : 1 ≤ maxConcurrency
  maxDeliveryAttempts : Int
  hooks : Option (HookName → Bool)
  parse : MessageData → Except Exc Event

/-- The calls `_handle` awaits. -/
inductive Call (Result : Type) where
  | claim (key owner : String) (leaseSeconds : Rat)
  | feedUpdate (event : Event)
  | answer (event : Event) (result : Result)
  | createMessage (space text : String)
  | complete (key owner : String)
  | release (key owner : String)
  | hook (name : HookName) (messageId : String) (event : Option Event)
  | renewal (owner : String)

/-- The four places where `_handle` calls `message.ack()`. -/
inductive AckSite where
  | duplicate | capability | success | poison
  deriving DecidableEq, Repr

/-- The effects of `_handle` that do not suspend. -/
inductive Effect where
  | ack (site : AckSite)
  | nack
  | startRenewal (key owner : String)
  | cancelRenewal (owner : String)
  deriving DecidableEq, Repr

def Call.Res {Result : Type} : Call Result → Type
  | .claim .. => ClaimResult
  | .feedUpdate _ => Result
  | .answer .. => Option String
  | .createMessage .. | .complete .. | .release .. | .hook .. | .renewal _ => Unit

abbrev sig (Result : Type) : Sig where
  Call := Call Result
  Res := Call.Res
  Eff := Effect
  Exc := Exc

variable {Result : Type}

abbrev awaitCall (c : Call Result) : Coro (sig Result) c.Res := call (S := sig Result) c

abbrev perform (e : Effect) : Coro (sig Result) Unit := act (S := sig Result) e

/-- `_DEFAULT_LEASE_SECONDS` -/
def defaultLeaseSeconds : Rat := 300

/-- The claim key: Google message ids are unique per topic only. -/
def dedupeKey (runner : Runner) (message : Message) : String :=
  runner.subscription ++ ":" ++ message.messageId

def providesHook (runner : Runner) (name : HookName) : Bool :=
  match runner.hooks with
  | none => false
  | some provides => provides name

/-- Invoke an optional observability hook; its exceptions are logged only. -/
def maybeHook (runner : Runner) (name : HookName) (messageId : String) (event : Option Event) :
    Coro (sig Result) Unit :=
  if providesHook runner name then
    tryElse (awaitCall (.hook name messageId event)) (fun _ => pure ()) fun _ => pure ()
  else pure ()

/-- Best-effort user notification before a poison ACK. -/
def notifyPoison (runner : Runner) (event : Option Event) (errorClass : String) :
    Coro (sig Result) Unit :=
  match runner.hasBot, event.bind Event.spaceName with
  | true, some space =>
    tryElse (awaitCall
        (.createMessage space ("Error while processing your message (" ++ errorClass ++ ").")))
      (fun _ => pure ()) fun _ => pure ()
  | _, _ => pure ()

/-- `None >= max_delivery_attempts` -/
def attemptTypeError : Exc where
  capabilityNotSupported := false
  typeName := "TypeError"
  str := "'>=' not supported between instances of 'NoneType' and 'int'"

/-- The `except Exception` branch: owner-checked release, then poison-ACK or NACK. -/
def failDelivery (runner : Runner) (message : Message) (owner : String) (event : Option Event)
    (error : Exc) : Coro (sig Result) Unit := do
  tryElse (awaitCall (.release (dedupeKey runner message) owner))
    (fun _ => pure ()) fun _ => pure ()
  match message.deliveryAttempt with
  | none => raise attemptTypeError
  | some attempt =>
    if runner.maxDeliveryAttempts ≤ attempt then do
      notifyPoison runner event error.typeName
      perform (.ack .poison)
    else do
      perform .nack
      maybeHook runner .deliveryNacked message.messageId event

/-- The `except CapabilityNotSupported` branch of the answer: tell the space, complete, then ACK. -/
def capabilityRejected (runner : Runner) (message : Message) (owner : String) (event : Event)
    (error : Exc) : Coro (sig Result) Unit :=
  if error.capabilityNotSupported then do
    match runner.hasBot, event.spaceName with
    | true, some space => awaitCall (.createMessage space error.str)
    | _, _ => pure ()
    awaitCall (.complete (dedupeKey runner message) owner)
    perform (.ack .capability)
  else raise error

/-- Success: complete the claim first, then ACK. -/
def succeed (runner : Runner) (message : Message) (owner : String) (event : Event) :
    Coro (sig Result) Unit := do
  awaitCall (.complete (dedupeKey runner message) owner)
  perform (.ack .success)
  maybeHook runner .deliveryAcked message.messageId (some event)

/-- Dispatch, answer, complete and ACK: the body of the `try` after parsing. -/
def dispatch (runner : Runner) (message : Message) (owner : String) (event : Event) :
    Coro (sig Result) Unit := do
  let result ← awaitCall (.feedUpdate event)
  tryElse (awaitCall (.answer event result))
    (capabilityRejected runner message owner event)
    fun _operation => succeed runner message owner event

/-- The `finally` branch: whatever the renewal task ends with is swallowed. -/
def joinRenewal (owner : String) : Coro (sig Result) Unit := do
  perform (.cancelRenewal owner)
  swallow (awaitCall (.renewal owner))

/-- The block of a `FIRST` claim. In the `except Exception` branch `event` is still `None` exactly
when parsing raised. -/
def process (runner : Runner) (message : Message) (owner : String) : Coro (sig Result) Unit :=
  tryFinally
    (tryCancel
      (do
        perform (.startRenewal (dedupeKey runner message) owner)
        let event ← ofExcept (runner.parse message.data)
        dispatch runner message owner event)
      (perform .nack)
      (failDelivery runner message owner (runner.parse message.data).toOption))
    (joinRenewal owner)

/-- One delivery attempt. -/
def handle (runner : Runner) (message : Message) (owner : String) : Coro (sig Result) Unit :=
  tryElse (awaitCall (.claim (dedupeKey runner message) owner defaultLeaseSeconds))
    (fun _ => perform .nack)
    fun
      | .completed => perform (.ack .duplicate)
      | .active => perform .nack
      | .first => process runner message owner

end Chattice.PubsubRunner
