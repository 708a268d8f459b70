import Chattice.Dispatcher.Router
import Chattice.Events.Base

/-!
# The dispatcher

* `routePass` : one pass over the tree for one observer name; every observer starts from a copy of
  the dispatcher's context and every handler from a copy of its observer's;
* `specificObserverNames` : the observers of an event, the most specific first;
* `Dispatcher.routeEvent` : a pass for each of them, then one for `event`.
-/

namespace Chattice.Routing
open Python (truthy)

variable (m : Type → Type) (Ev V : Type)

/-- The hooks around a handler; an implementation provides any subset. -/
structure HandlerHooks where
  beforeHandler : Option (Ev → Context V → String → m (Except Raised Unit))
  afterHandler : Option (Ev → Context V → String → V → m (Except Raised Unit))

structure DispatchOutcome where
  handled : Bool := false
  stopped : Bool := false
  result : Option V := none
  deriving DecidableEq, Repr

/-- How the `try` statement around one handler ends: the loop goes on, routing is stopped, an
exception leaves it, or the handler has returned, with the context it leaves. -/
inductive Verdict where
  | passedOver
  | stopped
  | raised (raised : Raised)
  | completed (result : V) (data : Context V)

variable {m Ev V} [Monad m]

/-- `_maybe_hook`: an ordinary exception of a hook is swallowed. -/
def maybeHook (hook : Option (m (Except Raised Unit))) : m (Except Raised Unit) :=
  match hook with
  | none => pure (.ok ())
  | some call => do
    match ← call with
    | .error (.exception _) => pure (.ok ())
    | ended => pure ended

/-! ## Invoking a handler -/

/-- `resolved_handler`: the innermost invocation, which tags what the handler or the resolution of
its parameters raises. -/
def resolvedHandler (handler : HandlerObject m Ev V) : NextHandler m Ev V := fun event data => do
  match ← handler.plan event data with
  | .ok result => pure (.ok result, data)
  | .error raised =>
    pure (.error (raised.onException fun e =>
      if e.isInstance "DependencyResolutionError" then
        e.attach "dependency_resolution" (some handler.qualifiedName)
      else e.attach "handler" (some handler.qualifiedName)), data)

/-- `Dispatcher._invoke` -/
def invoke (handler : HandlerObject m Ev V) (middleware : List (Middleware m Ev V)) :
    NextHandler m Ev V :=
  invokeWithMiddleware (resolvedHandler handler) middleware

def runHandler (hooks : HandlerHooks m Ev V) (middleware : List (Middleware m Ev V)) (event : Ev)
    (handler : HandlerObject m Ev V) (data : Context V) :
    m (Except Raised (Option (V × Context V))) := do
  match ← maybeHook (hooks.beforeHandler.map fun hook => hook event data handler.qualifiedName) with
  | .error raised => pure (.error raised)
  | .ok () =>
    match ← invoke handler middleware event data with
    | (.error raised, _) => pure (.error raised)
    | (.ok result, data) => pure (.ok (some (result, data)))

def filterFailure (handler : HandlerObject m Ev V) (raised : Raised) : Raised :=
  raised.onException fun e => e.attach "filter" (some handler.qualifiedName)

/-- The body of the `try` statement: `none` when a filter answers `False`. -/
def tryHandler (hooks : HandlerHooks m Ev V) (middleware : List (Middleware m Ev V)) (event : Ev)
    (handler : HandlerObject m Ev V) (data : Context V) :
    m (Except Raised (Option (V × Context V))) := do
  match ← evaluateFilters event handler.filters data with
  | .error raised => pure (.error (filterFailure handler raised))
  | .ok none => pure (.ok none)
  | .ok (some data) => runHandler hooks middleware event handler data

/-- The `except` clauses. What is still untagged escaped from a middleware. -/
def settle (handler : HandlerObject m Ev V) : Except Raised (Option (V × Context V)) → Verdict V
  | .ok none => .passedOver
  | .error .skipHandler => .passedOver
  | .error .stopPropagation => .stopped
  | .error raised => .raised (raised.onException fun e =>
      if e.failureStage = "unknown" then e.attach "middleware" (some handler.qualifiedName) else e)
  | .ok (some (result, data)) => .completed result data

/-- After the `try` statement: the hook, and the outcome. -/
def finish (hooks : HandlerHooks m Ev V) (event : Ev) (handler : HandlerObject m Ev V) (result : V)
    (data : Context V) : m (Except Raised (DispatchOutcome V)) := do
  match ← maybeHook (hooks.afterHandler.map fun hook =>
      hook event data handler.qualifiedName result) with
  | .error raised => pure (.error raised)
  | .ok () => pure (.ok { handled := true, result := some result })

/-! ## One pass -/

/-- The loop over the handlers of one observer; `none` when it ends without a `return`. -/
def routeHandlers (hooks : HandlerHooks m Ev V) (middleware : List (Middleware m Ev V))
    (event : Ev) (observerData : Context V) :
    List (HandlerObject m Ev V) → m (Except Raised (Option (DispatchOutcome V)))
  | [] => pure (.ok none)
  | handler :: handlers => do
    match settle handler (← tryHandler hooks middleware event handler observerData) with
    | .passedOver => routeHandlers hooks middleware event observerData handlers
    | .stopped => pure (.ok (some { stopped := true }))
    | .raised raised => pure (.error raised)
    | .completed result data => Except.map some <$> finish hooks event handler result data

/-- The loop over the walk. An observer without handlers is skipped before its filters run. -/
def routeWalk (hooks : HandlerHooks m Ev V) (event : Ev) (data : Context V) (name : ObserverName) :
    List (Router m Ev V × List (Middleware m Ev V)) → m (Except Raised (DispatchOutcome V))
  | [] => pure (.ok {})
  | (router, middleware) :: routers =>
    if (router.observer name).handlers = [] then routeWalk hooks event data name routers
    else do
      match ← evaluateFilters event (router.observer name).filters data with
      | .error .skipHandler => routeWalk hooks event data name routers
      | .error .stopPropagation => pure (.ok { stopped := true })
      | .error raised => pure (.error (raised.onException fun e => e.attach "filter" none))
      | .ok none => routeWalk hooks event data name routers
      | .ok (some observerData) =>
        match ← routeHandlers hooks middleware event observerData
            (router.observer name).handlers with
        | .error raised => pure (.error raised)
        | .ok none => routeWalk hooks event data name routers
        | .ok (some outcome) => pure (.ok outcome)

/-- `Dispatcher._route_pass` -/
def routePass (hooks : HandlerHooks m Ev V) (root : Router m Ev V) (event : Ev)
    (data : Context V) (name : ObserverName) : m (Except Raised (DispatchOutcome V)) :=
  routeWalk hooks event data name (root.walk [])

/-! ## Events -/

/-- What `feed_update` routes: an event of the adapters, an `ErrorEvent` about another one, or an
`Event` of none of the classes the dispatcher knows. -/
inductive Routed where
  | event (event : Event)
  | error (sourceEvent : Routed) (exception : Exc)
  | other (eventType : String)
  deriving Repr

/-- `isinstance(event, ErrorEvent)` -/
def Routed.isErrorEvent : Routed → Bool
  | .error _ _ => true
  | _ => false

/-- `Dispatcher._specific_observer_names` -/
def specificObserverNames : Routed → List ObserverName
  | .event event =>
    match event.body with
    | .message .. => [.message]
    | .action .. =>
      match event.dialog.map DialogMetadata.type with
      | some .submitDialog => [.dialogSubmit]
      | some .cancelDialog => [.dialogCancel]
      | _ => [.action]
    | .command _ _ kind .. =>
      match kind with
      | some .messageAction => [.messageAction, .command]
      | some .slashCommand => [.slashCommand, .command]
      | some .quickCommand => [.quickCommand, .command]
      | none => []
    | .addedToSpace => [.addedToSpace]
    | .removedFromSpace => [.removedFromSpace]
    | .widgetUpdated .. => [.widgetUpdated]
    | .appHome => [.appHome]
    | .formSubmit .. => [.formSubmit]
    | .unknown _ => [.unknownEvent]
  | .error _ _ => [.error]
  | .other _ => []

/-- `UnhandledInteractionError` -/
def unhandledInteraction (fields : List String) : Exc where
  classes := ["UnhandledInteractionError", "RoutingError", "ChatticeError", "Exception"]
  message := [.text ("Unhandled interactive event: " ++ " ".intercalate fields)]

structure Dispatcher (m : Type → Type) (V : Type) where
  router : Router m Routed V
  hooks : HandlerHooks m Routed V
  strictInteractions : Bool

namespace Dispatcher

/-- `Dispatcher._log_unmatched` -/
def logUnmatched (d : Dispatcher m V) : Routed → Except Exc Unit
  | .event event =>
    match event.body with
    | .action name _ _ _ _ message =>
      let messageName := message.bind MessageRef.name
      let fields := ["event_type=action", s!"action={name}"] ++
        if truthy messageName then ["message=" ++ messageName.getD ""] else []
      if d.strictInteractions then .error (unhandledInteraction fields) else .ok ()
    | .command commandId .. =>
      if d.strictInteractions then
        .error (unhandledInteraction ["event_type=command", s!"command_id={commandId}"])
      else .ok ()
    | _ => .ok ()
  | _ => .ok ()

/-- The loop over the specific observers; `none` when it ends without a `return`. -/
def routeNames (d : Dispatcher m V) (event : Routed) (data : Context V) :
    List ObserverName → m (Except Raised (Option (DispatchOutcome V)))
  | [] => pure (.ok none)
  | name :: names => do
    match ← routePass d.hooks d.router event data name with
    | .error raised => pure (.error raised)
    | .ok outcome =>
      if outcome.handled || outcome.stopped then pure (.ok (some outcome))
      else d.routeNames event data names

/-- The end of `_route_event` for the outcome of the pass over `event`. -/
def unmatched (d : Dispatcher m V) (event : Routed) (outcome : DispatchOutcome V) :
    Except Raised (DispatchOutcome V) :=
  if !outcome.handled && !outcome.stopped then
    match d.logUnmatched event with
    | .error e => .error (.exception e)
    | .ok () => .ok outcome
  else .ok outcome

/-- `Dispatcher._route_event` -/
def routeEvent (d : Dispatcher m V) (event : Routed) (data : Context V) :
    m (Except Raised (DispatchOutcome V)) := do
  match ← d.routeNames event data (specificObserverNames event) with
  | .error raised => pure (.error raised)
  | .ok (some outcome) => pure (.ok outcome)
  | .ok none =>
    if event.isErrorEvent then pure (.ok {})
    else do
      match ← routePass d.hooks d.router event data .event with
      | .error raised => pure (.error raised)
      | .ok outcome => pure (d.unmatched event outcome)

end Dispatcher

end Chattice.Routing
