import Chattice.Dispatcher.Filters

/-!
# Routers

* `invokeWithMiddleware` : the middleware of a path around a handler, first registered outermost;
* `Router` : a tree of observers, middleware and child routers;
* `Router.walk` : the routers in preorder, each with the middleware of the path down to it.
-/

namespace Chattice.Routing

variable (m : Type → Type) (Ev V : Type)

/-- An invocation with the context it got as it leaves it: the `dict` of one candidate is shared by
the middleware around its handler. -/
abbrev NextHandler := Ev → Context V → m (Except Raised V × Context V)

abbrev Middleware := NextHandler m Ev V → NextHandler m Ev V

/-- A registered callback under its qualified name, with its own filters. `plan` is the `invoke` of
its dependency plan: it reads the context and runs the callback. -/
structure HandlerObject where
  qualifiedName : String
  filters : List (Filter m Ev V)
  plan : Ev → Context V → m (Except Raised V)

/-- The handlers of one event category in registration order, and the filters common to them. -/
structure EventObserver where
  filters : List (Filter m Ev V)
  handlers : List (HandlerObject m Ev V)

/-- The observers of a router, by attribute. -/
inductive ObserverName where
  | message | action | command | slashCommand | quickCommand | messageAction
  | addedToSpace | removedFromSpace | widgetUpdated | appHome | formSubmit
  | dialogSubmit | dialogCancel | event | unknownEvent | error
  deriving DecidableEq, Repr

inductive Router where
  | mk (name : String) (observer : ObserverName → EventObserver m Ev V)
      (middleware : List (Middleware m Ev V)) (children : List Router)

variable {m Ev V}

/-- `invoke_with_middleware` -/
def invokeWithMiddleware (handler : NextHandler m Ev V) (middleware : List (Middleware m Ev V)) :
    NextHandler m Ev V :=
  middleware.foldr (fun item next => item next) handler

namespace Router

def observer : Router m Ev V → ObserverName → EventObserver m Ev V
  | mk _ observer _ _ => observer

mutual

/-- `Router._walk` -/
def walk (inherited : List (Middleware m Ev V)) :
    Router m Ev V → List (Router m Ev V × List (Middleware m Ev V))
  | mk name observer middleware children =>
    (mk name observer middleware children, inherited ++ middleware) ::
      walkChildren (inherited ++ middleware) children

def walkChildren (inherited : List (Middleware m Ev V)) :
    List (Router m Ev V) → List (Router m Ev V × List (Middleware m Ev V))
  | [] => []
  | child :: children => walk inherited child ++ walkChildren inherited children

end

end Router

end Chattice.Routing
