import Chattice.Dispatcher.Router

/-!
# The runtime of Workspace events

A second, independent runtime: routers with one observer each, no common filters and no hooks.

* `EventsRouter.walk` : the routers in preorder, each with the middleware of the path down to it;
* `feedEvent` : `EventsDispatcher.feed_event`.
-/

namespace Chattice.WorkspaceEvents

open Routing

variable (m : Type → Type) (Ev V : Type)

/-- A registered callback with its filters. `plan` is the `invoke` of its plan: it reads the context
and runs the callback. -/
structure HandlerObject where
  filters : List (Filter m Ev V)
  plan : Ev → Context V → m (Except Raised V)

inductive EventsRouter where
  | mk (name : String) (handlers : List (HandlerObject m Ev V))
      (middleware : List (Middleware m Ev V)) (children : List EventsRouter)

variable {m Ev V}

namespace EventsRouter

/-- `router.workspace_event.handlers` -/
def handlers : EventsRouter m Ev V → List (HandlerObject m Ev V)
  | mk _ handlers _ _ => handlers

mutual

/-- `EventsRouter._walk` -/
def walk (inherited : List (Middleware m Ev V)) :
    EventsRouter m Ev V → List (EventsRouter m Ev V × List (Middleware m Ev V))
  | mk name handlers middleware children =>
    (mk name handlers middleware children, inherited ++ middleware) ::
      walkChildren (inherited ++ middleware) children

def walkChildren (inherited : List (Middleware m Ev V)) :
    List (EventsRouter m Ev V) → List (EventsRouter m Ev V × List (Middleware m Ev V))
  | [] => []
  | child :: children => walk inherited child ++ walkChildren inherited children

end

end EventsRouter

/-- The items of one mapping, added to the context one by one. -/
def addItems (filter_ : Filter m Ev V) :
    List (Key × V) → Context V → Except Routing.Exc (Context V)
  | [], data => .ok data
  | (.other, _) :: _, _ => .error keysMustBeStrings
  | (.str key, value) :: items, data =>
    if data.has key then .error (filter_.conflict key)
    else addItems filter_ items (data ++ [(key, value)])

variable [Monad m]

/-- `_evaluate_filters`: `some` of the context it leaves when every filter matched. -/
def evaluateFilters (event : Ev) :
    List (Filter m Ev V) → Context V → m (Except Raised (Option (Context V)))
  | [], data => pure (.ok (some data))
  | filter_ :: filters, data => do
    match ← filter_.call event data with
    | .error raised => pure (.error raised)
    | .ok (.bool true) => evaluateFilters event filters data
    | .ok (.bool false) => pure (.ok none)
    | .ok (.other typeName) => pure (.error (.exception (filter_.unsupported typeName)))
    | .ok (.mapping items) =>
      match addItems filter_ items data with
      | .error e => pure (.error (.exception e))
      | .ok data => evaluateFilters event filters data

/-- `resolved_handler` -/
def resolvedHandler (handler : HandlerObject m Ev V) : NextHandler m Ev V := fun event data => do
  let ended ← handler.plan event data
  return (ended, data)

/-- `_invoke` -/
def invoke (handler : HandlerObject m Ev V) (middleware : List (Middleware m Ev V)) :
    NextHandler m Ev V :=
  middleware.foldr (fun item next => item next) (resolvedHandler handler)

/-- The body of the `try` statement: `none` when a filter answers `False`, else what `_invoke`
returns, with the context it leaves. -/
def tryHandler (middleware : List (Middleware m Ev V)) (event : Ev) (handler : HandlerObject m Ev V)
    (data : Context V) : m (Except Raised (Option (V × Context V))) := do
  match ← evaluateFilters event handler.filters data with
  | .error raised => pure (.error raised)
  | .ok none => pure (.ok none)
  | .ok (some data) =>
    match ← invoke handler middleware event data with
    | (.error raised, _) => pure (.error raised)
    | (.ok result, data) => pure (.ok (some (result, data)))

/-- The loop over the handlers of one router; `none` when it ends without a `return`. -/
def feedHandlers (middleware : List (Middleware m Ev V)) (event : Ev) (context : Context V) :
    List (HandlerObject m Ev V) → m (Except Raised (Option (Option V)))
  | [] => pure (.ok none)
  | handler :: handlers => do
    match ← tryHandler middleware event handler context with
    | .ok none => feedHandlers middleware event context handlers
    | .ok (some (result, _)) => pure (.ok (some (some result)))
    | .error .skipHandler => feedHandlers middleware event context handlers
    | .error .stopPropagation => pure (.ok (some none))
    | .error raised => pure (.error raised)

def feedWalk (event : Ev) (context : Context V) :
    List (EventsRouter m Ev V × List (Middleware m Ev V)) → m (Except Raised (Option V))
  | [] => pure (.ok none)
  | (router, middleware) :: routers => do
    match ← feedHandlers middleware event context router.handlers with
    | .error raised => pure (.error raised)
    | .ok none => feedWalk event context routers
    | .ok (some result) => pure (.ok result)

/-- `EventsDispatcher.feed_event`; `none` is `None`. -/
def feedEvent (root : EventsRouter m Ev V) (event : Ev) (context : Context V) :
    m (Except Raised (Option V)) :=
  feedWalk event context (root.walk [])

end Chattice.WorkspaceEvents
