import Mathlib.Data.List.Basic
import Chattice.Python.Str

/-!
# Filters

A filter looks at an event and the context gathered so far and answers with a bool or with a
mapping to add to the context; like every user callable of the routing runtime it runs in an
arbitrary monad `m` and may raise instead.

* `Raised` : what a callable raises, the routing controls apart from ordinary exceptions;
* `Exc.attach` : the stage an exception escaped from, tagged on the exception;
* `mergeItems` : a mapping merged into the context, which it may extend but not redefine;
* `evaluateFilters` : the filters in order, `none` once one of them answers `False`.
-/

namespace Chattice.Routing
open Python (Text)

/-! ## Exceptions -/

/-- An exception object (`Exception` and below): the names of its classes along the resolution
order, its message, and the attributes the dispatcher sets on it. An object that refuses
attributes is not `taggable`. -/
structure Exc where
  classes : List String
  message : Text
  taggable : Bool := true
  stage : Option String := none
  handler : Option String := none
  deriving Repr

namespace Exc

/-- `isinstance(exc, cls)` -/
def isInstance (e : Exc) (cls : String) : Bool := e.classes.contains cls

/-- `_attach_failure_context` -/
def attach (e : Exc) (stage : String) (handler : Option String) : Exc :=
  if e.taggable then { e with stage := some stage, handler := handler.or e.handler } else e

/-- `_failure_stage` -/
def failureStage (e : Exc) : String := e.stage.getD "unknown"

end Exc

/-- What a callable raises. `SkipHandler`, `StopPropagation` and the like of `CancelledError`
are no `Exception`. -/
inductive Raised where
  | skipHandler
  | stopPropagation
  | exception (e : Exc)
  | baseException (cls : String)
  deriving Repr

/-- `except Exception as exc: …; raise`, with what the handler does to the exception. -/
def Raised.onException (f : Exc → Exc) : Raised → Raised
  | .exception e => .exception (f e)
  | raised => raised

/-! ## The context -/

/-- The dispatch context, a `dict` in insertion order. -/
abbrev Context (V : Type) := List (String × V)

/-- `key in data` -/
def Context.has {V : Type} (data : Context V) (key : String) : Bool :=
  data.any fun entry => entry.1 == key

/-- A key of a mapping that a filter returned. -/
inductive Key where
  | str (key : String)
  | other
  deriving Repr

/-- What a filter returns. `other` is a value that is neither a bool nor a mapping, with the name
of its type. -/
inductive FilterValue (V : Type) where
  | bool (value : Bool)
  | mapping (items : List (Key × V))
  | other (typeName : String)
  deriving Repr

variable {m : Type → Type} {Ev V : Type}

structure Filter (m : Type → Type) (Ev V : Type) where
  repr : String
  call : Ev → Context V → m (Except Raised (FilterValue V))

namespace Filter

/-- `FilterError` for a value of another type. -/
def unsupported (filter_ : Filter m Ev V) (typeName : String) : Exc where
  classes := ["FilterError", "RoutingError", "ChatticeError", "Exception"]
  message := [.text s!"Filter {filter_.repr} returned {typeName}; expected bool or mapping"]

/-- `ContextConflictError` -/
def conflict (filter_ : Filter m Ev V) (key : String) : Exc where
  classes := ["ContextConflictError", "FilterError", "RoutingError", "ChatticeError", "Exception"]
  message := [.text s!"Filter {filter_.repr} attempted to redefine context key ",
    .repr (.str key)]

end Filter

/-- `FilterError` for a key that is no string. -/
def keysMustBeStrings : Exc where
  classes := ["FilterError", "RoutingError", "ChatticeError", "Exception"]
  message := [.text "Filter context keys must be strings"]

/-- Merge the items of one mapping into the context. -/
def mergeItems (filter_ : Filter m Ev V) :
    List (Key × V) → Context V → Except Exc (Context V)
  | [], data => .ok data
  | (.other, _) :: _, _ => .error keysMustBeStrings
  | (.str key, value) :: items, data =>
    if data.has key then .error (filter_.conflict key)
    else mergeItems filter_ items (data ++ [(key, value)])

variable [Monad m]

/-- `evaluate_filters`: `some` of the context it leaves when every filter matched. -/
def evaluateFilters (event : Ev) :
    List (Filter m Ev V) → Context V → m (Except Raised (Option (Context V)))
  | [], data => pure (.ok (some data))
  | filter_ :: filters, data => do
    match ← filter_.call event data with
    | .error raised => pure (.error raised)
    | .ok (.bool true) => evaluateFilters event filters data
    | .ok (.bool false) => pure (.ok none)
    | .ok (.other typeName) => pure (.error (.exception (filter_.unsupported typeName)))
    | .ok (.mapping items) =>
      match mergeItems filter_ items data with
      | .error e => pure (.error (.exception e))
      | .ok data => evaluateFilters event filters data

end Chattice.Routing
