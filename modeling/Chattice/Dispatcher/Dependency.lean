import Chattice.Dispatcher.FeedUpdate
import Chattice.Dispatcher.FirstMatch

/-!
# What a handler is called with

`build_handler_plan` reads the signature of a callback once; `HandlerPlan.invoke` finds a value for every
parameter from the event and the context, then calls the callback by keyword. An annotation is what
`get_type_hints` returns, and an exception of the callback's own is what its `body` ends with.

* `buildHandlerPlan`, `HandlerPlan.invoke` : the two functions;
* `Parameter.source` : what a parameter gets, by itself;
* `invoke_eq` : the callback gets what each of its parameters gets by itself, or the first parameter that
  gets nothing is reported and the callback is not called;
* `kwargs_iff` : the handlers of an observer that no event of the observer fails to resolve.
-/

namespace Chattice.Routing

open Python (Text)

/-! ## Callbacks -/

/-- The annotations that `_event_types` tells apart. -/
inductive Annotation where
  | empty
  | any
  | union (arguments : List Annotation)
  /-- A subclass of `Event`, `Event` itself included. -/
  | eventClass (name : String)
  | other

inductive ParameterKind where
  | positionalOnly | positionalOrKeyword | varPositional | keywordOnly | varKeyword
  deriving DecidableEq, Repr

def ParameterKind.description : ParameterKind → String
  | positionalOnly => "positional-only"
  | positionalOrKeyword => "positional or keyword"
  | varPositional => "variadic positional"
  | keywordOnly => "keyword-only"
  | varKeyword => "variadic keyword"

/-- `inspect.Parameter` -/
structure Parameter (V : Type) where
  name : String
  kind : ParameterKind
  annotation : Annotation
  default : Option V

/-- `inspect.Signature`: no two parameters have one name. -/
structure Signature (V : Type) where
  parameters : List (Parameter V)
  names : (parameters.map Parameter.name).Nodup

inductive Argument (V : Type) where
  | event (event : Routed)
  | value (value : V)

/-- A callable object. `signature` and `hints` are `none` where `inspect.signature` and `get_type_hints`
raise; `body` returns `none` where the callable returns something that cannot be awaited. -/
structure Callback (m : Type → Type) (V : Type) where
  module : Option String
  qualname : Option String
  repr : String
  isCoroutineFunction : Bool
  callIsCoroutineFunction : Bool
  signature : Option (Signature V)
  hints : Option (List (String × Annotation))
  body : List (String × Argument V) → Option (m (Except Raised V))

variable {m : Type → Type} {V : Type}

namespace Callback

def parameters (callback : Callback m V) : List (Parameter V) :=
  callback.signature.elim [] Signature.parameters

theorem names (callback : Callback m V) : (callback.parameters.map Parameter.name).Nodup := by
  unfold parameters
  cases callback.signature with
  | none => exact List.nodup_nil
  | some signature => exact signature.names

/-- `handler_qualified_name` -/
def qualifiedName (callback : Callback m V) : String :=
  match callback.module, callback.qualname with
  | some module, some qualname => s!"{module}.{qualname}"
  | none, some qualname => qualname
  | _, none => callback.repr

/-- `_is_async_callback` -/
def isAsync (callback : Callback m V) : Bool :=
  callback.isCoroutineFunction || callback.callIsCoroutineFunction

end Callback

/-! ## Events -/

def bodyClassName : EventBody → String
  | .message .. => "MessageEvent"
  | .command .. => "CommandEvent"
  | .addedToSpace => "AddedToSpaceEvent"
  | .removedFromSpace => "RemovedFromSpaceEvent"
  | .appHome => "AppHomeEvent"
  | .action .. => "ActionEvent"
  | .widgetUpdated .. => "WidgetUpdatedEvent"
  | .formSubmit .. => "FormSubmitEvent"
  | .unknown _ => "UnknownEvent"

/-- `type(event).__name__` -/
def Routed.className : Routed → String
  | .event e => bodyClassName e.body
  | .error _ _ => "ErrorEvent"
  | .other _ => "Event"

/-- `isinstance(event, cls)` -/
def Routed.isInstance (event : Routed) (cls : String) : Bool := cls == event.className || cls == "Event"

/-- `_event_aliases` -/
def eventAliases : Routed → List String
  | .event event =>
    match event.body with
    | .message .. => ["event", "message"]
    | .action .. =>
      match event.dialog.map DialogMetadata.type with
      | some .submitDialog => ["event", "action", "dialog_submit"]
      | some .cancelDialog => ["event", "action", "dialog_cancel"]
      | _ => ["event", "action"]
    | .command .. => ["event", "command"]
    | .addedToSpace => ["event", "added_to_space"]
    | .removedFromSpace => ["event", "removed_from_space"]
    | .widgetUpdated .. => ["event", "widget"]
    | .appHome => ["event", "app_home"]
    | .formSubmit .. => ["event", "form"]
    | .unknown _ => ["event", "unknown"]
  | .error _ _ => ["event", "error", "error_event"]
  | .other _ => ["event"]

/-! ## Plans -/

structure ParameterPlan where
  name : String
  eventTypes : List String
  eventAlias : Bool
  hasDefault : Bool
  deriving DecidableEq, Repr

structure HandlerPlan (m : Type → Type) (V : Type) where
  callback : Callback m V
  parameters : List ParameterPlan

mutual

/-- `_event_types` -/
def eventTypes : Annotation → List String
  | .union arguments => (unionTypes arguments).eraseDups
  | .eventClass name => [name]
  | _ => []

def unionTypes : List Annotation → List String
  | [] => []
  | argument :: arguments => eventTypes argument ++ unionTypes arguments

end

/-- The names an unannotated parameter can have for the event. -/
def aliasNames : List String :=
  ["event", "message", "action", "command", "added_to_space", "removed_from_space", "widget", "app_home",
    "form", "dialog_submit", "dialog_cancel", "unknown", "error", "error_event"]

/-- `annotation in (inspect.Signature.empty, Any)` -/
def Annotation.untyped : Annotation → Bool
  | .empty => true
  | .any => true
  | _ => false

/-- `hints.get(parameter.name, parameter.annotation)` -/
def Callback.hint (callback : Callback m V) (parameter : Parameter V) : Annotation :=
  ((callback.hints.getD []).lookup parameter.name).getD parameter.annotation

/-- The plan of one parameter. -/
def Callback.parameterPlan (callback : Callback m V) (parameter : Parameter V) : ParameterPlan where
  name := parameter.name
  eventTypes := eventTypes (callback.hint parameter)
  eventAlias := (eventTypes (callback.hint parameter)).isEmpty && (callback.hint parameter).untyped &&
    aliasNames.contains parameter.name
  hasDefault := parameter.default.isSome

def ParameterKind.unsupported : ParameterKind → Bool
  | positionalOnly => true
  | varPositional => true
  | varKeyword => true
  | _ => false

/-- `InvalidHandlerError` -/
def invalidHandler (message : Text) : Exc where
  classes := ["InvalidHandlerError", "RoutingError", "ChatticeError", "Exception"]
  message := message

/-- The loop over the parameters of the signature. -/
def Callback.planParameters (callback : Callback m V) :
    List (Parameter V) → Except Exc (List ParameterPlan)
  | [] => .ok []
  | parameter :: parameters =>
    if parameter.kind.unsupported then
      .error (invalidHandler [.text s!"Handler {callback.repr} parameter ", .repr (.str parameter.name),
        .text s!" uses unsupported kind {parameter.kind.description}"])
    else (callback.planParameters parameters).map (callback.parameterPlan parameter :: ·)

/-- `build_handler_plan` -/
def buildHandlerPlan (callback : Callback m V) : Except Exc (HandlerPlan m V) :=
  if callback.isAsync then
    match callback.signature with
    | none => .error (invalidHandler [.text s!"Cannot inspect handler {callback.repr}"])
    | some signature => (callback.planParameters signature.parameters).map (⟨callback, ·⟩)
  else
    .error (invalidHandler [.text "Handler ", .repr (.str callback.qualifiedName),
      .text " must be asynchronous. Declare it using 'async def'."])

/-! ## Invoking a plan -/

/-- `DependencyResolutionError` -/
def dependencyResolution (message : Text) : Exc where
  classes := ["DependencyResolutionError", "RoutingError", "ChatticeError", "Exception"]
  message := message

namespace HandlerPlan

/-- The parameter asks for an event of another class. -/
def wrongEvent (plan : HandlerPlan m V) (parameter : ParameterPlan) (event : Routed) : Exc :=
  dependencyResolution [.text "Parameter ", .repr (.str parameter.name), .text " for handler ",
    .repr (.str plan.callback.qualifiedName),
    .text (" requires " ++ ", ".intercalate parameter.eventTypes ++ ", received " ++ event.className ++
      " while handling " ++ event.className ++ ".")]

/-- Nothing provides the parameter. -/
def notProvided (plan : HandlerPlan m V) (parameter : ParameterPlan) (event : Routed) : Exc :=
  dependencyResolution [.text "Cannot resolve parameter ", .repr (.str parameter.name),
    .text " for handler ", .repr (.str plan.callback.qualifiedName),
    .text (" while handling " ++ event.className ++ ". The dependency was not provided by " ++
      "the event, dispatcher context, middleware, or dependency injection.")]

/-- The loop over the parameters, with the `kwargs` so far. -/
def collect (plan : HandlerPlan m V) (event : Routed) (data : Context V) :
    List ParameterPlan → Context (Argument V) → Except Exc (Context (Argument V))
  | [], kwargs => .ok kwargs
  | parameter :: parameters, kwargs =>
    if parameter.eventTypes.isEmpty then
      if parameter.eventAlias && (eventAliases event).contains parameter.name then
        plan.collect event data parameters (kwargs.set parameter.name (.event event))
      else
        match data.lookup parameter.name with
        | some value => plan.collect event data parameters (kwargs.set parameter.name (.value value))
        | none =>
          if parameter.hasDefault then plan.collect event data parameters kwargs
          else .error (plan.notProvided parameter event)
    else if parameter.eventTypes.any event.isInstance then
      plan.collect event data parameters (kwargs.set parameter.name (.event event))
    else .error (plan.wrongEvent parameter event)

def kwargs (plan : HandlerPlan m V) (event : Routed) (data : Context V) :
    Except Exc (Context (Argument V)) :=
  plan.collect event data plan.parameters []

end HandlerPlan

def bindParameter (kwargs : Context (Argument V)) (parameter : Parameter V) :
    Option (String × Argument V) :=
  ((kwargs.lookup parameter.name).or (parameter.default.map .value)).map (parameter.name, ·)

/-- The call of a signature whose parameters can all be given by keyword; `none` is a `TypeError`. -/
def bind (parameters : List (Parameter V)) (kwargs : Context (Argument V)) :
    Option (List (String × Argument V)) :=
  if kwargs.all fun argument => parameters.any fun parameter => parameter.name == argument.1 then
    parameters.mapM (bindParameter kwargs)
  else none

/-- `callback(**kwargs)`, awaited. -/
def Callback.run [Monad m] (callback : Callback m V) (arguments : List (String × Argument V)) :
    m (Except Raised V) :=
  match callback.body arguments with
  | some call => call
  | none => pure (.error (.exception (invalidHandler
      [.text s!"Handler {callback.repr} returned a non-awaitable value; Handlers must be async"])))

/-- `HandlerPlan.invoke` -/
def HandlerPlan.invoke [Monad m] (plan : HandlerPlan m V) (event : Routed) (data : Context V) :
    m (Except Raised V) :=
  match plan.kwargs event data with
  | .error e => pure (.error (.exception e))
  | .ok kwargs =>
    match bind plan.callback.parameters kwargs with
    | none => pure (.error (.exception ⟨["TypeError", "Exception"], [], true, none, none⟩))
    | some arguments => plan.callback.run arguments

/-! ## What a parameter gets by itself -/

namespace Callback

def given (callback : Callback m V) (event : Routed) (data : Context V) (parameter : Parameter V) :
    Option (Argument V) :=
  if (eventTypes (callback.hint parameter)).isEmpty then
    if (callback.parameterPlan parameter).eventAlias && (eventAliases event).contains parameter.name then
      some (.event event)
    else (data.lookup parameter.name).map .value
  else if (eventTypes (callback.hint parameter)).any event.isInstance then some (.event event)
  else none

/-- What the parameter gets: its default only where it names no class of events. -/
def source (callback : Callback m V) (event : Routed) (data : Context V) (parameter : Parameter V) :
    Option (Argument V) :=
  (callback.given event data parameter).or
    (if (eventTypes (callback.hint parameter)).isEmpty then parameter.default.map .value else none)

def failure (callback : Callback m V) (event : Routed) (parameter : Parameter V) : Exc :=
  let plan : HandlerPlan m V := ⟨callback, callback.parameters.map callback.parameterPlan⟩
  if (eventTypes (callback.hint parameter)).isEmpty then
    plan.notProvided (callback.parameterPlan parameter) event
  else plan.wrongEvent (callback.parameterPlan parameter) event

end Callback

/-! ## Plans and signatures -/

section Plans

variable {callback : Callback m V} {parameters : List (Parameter V)}

theorem planParameters_eq_ok {plans : List ParameterPlan}
    (h : callback.planParameters parameters = .ok plans) : plans = parameters.map callback.parameterPlan := by
  induction parameters generalizing plans with
  | nil => exact (Except.ok.inj h).symm
  | cons parameter parameters ih =>
    rw [Callback.planParameters] at h
    split at h
    · cases h
    · cases hrest : callback.planParameters parameters with
      | error e =>
        rw [hrest] at h
        cases h
      | ok rest =>
        rw [hrest] at h
        rw [← Except.ok.inj h, ih hrest, List.map_cons]

theorem buildHandlerPlan_eq_ok {plan : HandlerPlan m V} (h : buildHandlerPlan callback = .ok plan) :
    plan = ⟨callback, callback.parameters.map callback.parameterPlan⟩ := by
  unfold buildHandlerPlan at h
  split at h
  · cases hsignature : callback.signature with
    | none =>
      rw [hsignature] at h
      cases h
    | some signature =>
      rw [hsignature] at h
      dsimp only at h
      cases hplans : callback.planParameters signature.parameters with
      | error e =>
        rw [hplans] at h
        cases h
      | ok plans =>
        rw [hplans] at h
        rw [← Except.ok.inj h, planParameters_eq_ok hplans, Callback.parameters, hsignature]
        rfl
  · cases h

end Plans

/-! ## The loop over the parameters -/

theorem Context.set_of_fresh {kwargs : Context V} {key : String} (value : V)
    (h : ∀ entry ∈ kwargs, entry.1 ≠ key) : kwargs.set key value = kwargs ++ [(key, value)] := by
  induction kwargs with
  | nil => rfl
  | cons entry kwargs ih =>
    rw [Context.set, if_neg (h entry List.mem_cons_self), List.cons_append,
      ih fun entry' hentry => h entry' (List.mem_cons_of_mem _ hentry)]

theorem lookup_filterMap {α W : Type} (name : α → String) (f : α → Option W) {l : List α} {a : α}
    (ha : a ∈ l) (hnames : (l.map name).Nodup) :
    (l.filterMap fun b => (f b).map (name b, ·)).lookup (name a) = f a := by
  induction l with
  | nil => cases ha
  | cons b l ih =>
    obtain ⟨hfresh, hrest⟩ := List.nodup_cons.mp hnames
    obtain rfl | ha := List.mem_cons.mp ha
    · cases hfa : f a with
      | some value => rw [List.filterMap_cons_some (by rw [hfa]; rfl), List.lookup_cons_self]
      | none =>
        rw [List.filterMap_cons_none (by rw [hfa]; rfl), List.lookup_eq_none_iff]
        intro entry hentry
        obtain ⟨c, hc, hentry⟩ := List.mem_filterMap.mp hentry
        obtain ⟨value, -, rfl⟩ := Option.map_eq_some_iff.mp hentry
        exact bne_iff_ne.mpr fun heq => hfresh (heq ▸ List.mem_map_of_mem hc)
    · have hne : name a ≠ name b := fun heq => hfresh (heq ▸ List.mem_map_of_mem ha)
      rw [← ih ha hrest]
      cases hfb : f b with
      | some value =>
        rw [List.filterMap_cons_some (by rw [hfb]; rfl), List.lookup_cons, beq_false_of_ne hne]
      | none => rw [List.filterMap_cons_none (by rw [hfb]; rfl)]

theorem mapM_eq_filterMap {α β : Type} {f g : α → Option β} {l : List α} (hfg : ∀ a ∈ l, f a = g a)
    (h : ∀ a ∈ l, (g a).isSome = true) : l.mapM f = some (l.filterMap g) := by
  induction l with
  | nil => rfl
  | cons a l ih =>
    obtain ⟨b, hb⟩ := Option.isSome_iff_exists.mp (h a List.mem_cons_self)
    have hrest := ih (fun c hc => hfg c (List.mem_cons_of_mem _ hc))
      fun c hc => h c (List.mem_cons_of_mem _ hc)
    rw [List.mapM_cons, hfg a List.mem_cons_self, hb, hrest, List.filterMap_cons_some hb]
    rfl

theorem find?_isNone_eq_none {α β : Type} {f : α → Option β} {l : List α} :
    (l.find? fun a => (f a).isNone) = none ↔ ∀ a ∈ l, (f a).isSome = true := by
  rw [List.find?_eq_none]
  refine forall₂_congr fun a _ => ?_
  rw [Option.isNone_iff_eq_none, ← ne_eq, Option.isSome_iff_ne_none]

section Collect

variable {callback : Callback m V} {event : Routed} {data : Context V}

/-- The plan that `build_handler_plan` builds. -/
abbrev Callback.plan (callback : Callback m V) : HandlerPlan m V :=
  ⟨callback, callback.parameters.map callback.parameterPlan⟩

theorem collect_cons (parameter : Parameter V) (plans : List ParameterPlan)
    (kwargs : Context (Argument V)) :
    callback.plan.collect event data (callback.parameterPlan parameter :: plans) kwargs =
      (callback.source event data parameter).elim (.error (callback.failure event parameter)) fun _ =>
        callback.plan.collect event data plans
          ((callback.given event data parameter).elim kwargs (kwargs.set parameter.name)) := by
  have htypes : (callback.parameterPlan parameter).eventTypes = eventTypes (callback.hint parameter) := rfl
  have hname : (callback.parameterPlan parameter).name = parameter.name := rfl
  have hdefault : (callback.parameterPlan parameter).hasDefault = parameter.default.isSome := rfl
  rw [HandlerPlan.collect, htypes, hname, hdefault]
  unfold Callback.source Callback.given Callback.failure
  split
  · split
    · rfl
    · cases data.lookup parameter.name with
      | some value => rfl
      | none =>
        cases parameter.default with
        | some value => rfl
        | none => rfl
  · split
    · rfl
    · rfl

/-- The loop stops at the first parameter that gets nothing. -/
theorem collect_eq {parameters : List (Parameter V)} {kwargs : Context (Argument V)}
    (hnames : (parameters.map Parameter.name).Nodup)
    (hfresh : ∀ parameter ∈ parameters, ∀ entry ∈ kwargs, entry.1 ≠ parameter.name) :
    callback.plan.collect event data (parameters.map callback.parameterPlan) kwargs =
      (parameters.find? fun parameter => (callback.source event data parameter).isNone).elim
        (.ok (kwargs ++ parameters.filterMap fun parameter =>
          (callback.given event data parameter).map (parameter.name, ·)))
        fun parameter => .error (callback.failure event parameter) := by
  induction parameters generalizing kwargs with
  | nil =>
    rw [List.map_nil, HandlerPlan.collect, List.filterMap_nil, List.append_nil]
    rfl
  | cons parameter parameters ih =>
    obtain ⟨hname, hrest⟩ := List.nodup_cons.mp hnames
    rw [List.map_cons, collect_cons]
    cases hsource : callback.source event data parameter with
    | none =>
      rw [List.find?_cons_of_pos (by rw [hsource]; rfl)]
      rfl
    | some argument =>
      rw [List.find?_cons_of_neg (by rw [hsource]; exact Bool.false_ne_true), Option.elim_some]
      cases hgiven : callback.given event data parameter with
      | none =>
        rw [List.filterMap_cons_none (by rw [hgiven]; rfl), Option.elim_none]
        exact ih hrest fun p hp => hfresh p (List.mem_cons_of_mem _ hp)
      | some given =>
        have hset : kwargs.set parameter.name given = kwargs ++ [(parameter.name, given)] :=
          Context.set_of_fresh given (hfresh parameter List.mem_cons_self)
        rw [List.filterMap_cons_some (by rw [hgiven]; rfl), Option.elim_some, hset, ih hrest]
        · rw [List.append_assoc]
          rfl
        · intro p hp entry hentry
          obtain hold | hnew := List.mem_append.mp hentry
          · exact hfresh p (List.mem_cons_of_mem _ hp) entry hold
          · rw [List.mem_singleton.mp hnew]
            exact fun heq => hname (List.mem_map.mpr ⟨p, hp, heq.symm⟩)

/-- Every parameter that gets something is bound to it. -/
theorem bind_eq {parameters : List (Parameter V)} (hnames : (parameters.map Parameter.name).Nodup)
    (hall : ∀ parameter ∈ parameters, (callback.source event data parameter).isSome = true) :
    bind parameters (parameters.filterMap fun parameter =>
        (callback.given event data parameter).map (parameter.name, ·)) =
      some (parameters.filterMap fun parameter =>
        (callback.source event data parameter).map (parameter.name, ·)) := by
  have hknown : ((parameters.filterMap fun parameter =>
      (callback.given event data parameter).map (parameter.name, ·)).all fun argument =>
        parameters.any fun parameter => parameter.name == argument.1) = true := by
    rw [List.all_eq_true]
    intro entry hentry
    obtain ⟨parameter, hparameter, hentry⟩ := List.mem_filterMap.mp hentry
    obtain ⟨argument, -, rfl⟩ := Option.map_eq_some_iff.mp hentry
    exact List.any_eq_true.mpr ⟨parameter, hparameter, beq_self_eq_true _⟩
  have hbound : ∀ parameter ∈ parameters, bindParameter (parameters.filterMap fun parameter =>
      (callback.given event data parameter).map (parameter.name, ·)) parameter =
        (callback.source event data parameter).map (parameter.name, ·) := by
    intro parameter hparameter
    obtain ⟨argument, hsource⟩ := Option.isSome_iff_exists.mp (hall parameter hparameter)
    rw [bindParameter, lookup_filterMap Parameter.name _ hparameter hnames, hsource]
    unfold Callback.source at hsource
    split at hsource
    · rw [hsource]
    · rw [Option.or_none] at hsource
      rw [hsource, Option.some_or]
  rw [bind, if_pos hknown]
  refine mapM_eq_filterMap hbound fun parameter hparameter => ?_
  rw [Option.isSome_map, hall parameter hparameter]

/-- **Main result.** A callback whose plan has been built is called with what each of its parameters gets
by itself, each given exactly once, so that the call itself never fails; or it is not called, and the
first parameter that gets nothing is reported. -/
theorem invoke_eq [Monad m] {plan : HandlerPlan m V} (hplan : buildHandlerPlan callback = .ok plan)
    (event : Routed) (data : Context V) :
    plan.invoke event data =
      (callback.parameters.find? fun parameter => (callback.source event data parameter).isNone).elim
        (callback.run (callback.parameters.filterMap fun parameter =>
          (callback.source event data parameter).map (parameter.name, ·)))
        fun parameter => pure (.error (.exception (callback.failure event parameter))) := by
  rw [buildHandlerPlan_eq_ok hplan, HandlerPlan.invoke, HandlerPlan.kwargs,
    collect_eq callback.names fun _ _ _ hentry => by cases hentry]
  cases hfind : callback.parameters.find? fun parameter => (callback.source event data parameter).isNone with
  | some parameter => rfl
  | none =>
    rw [Option.elim_none, List.nil_append]
    dsimp only
    rw [bind_eq callback.names (find?_isNone_eq_none.mp hfind), Option.elim_none]

/-- The plan resolves every parameter that gets something by itself. -/
theorem kwargs_ok_iff {plan : HandlerPlan m V} (hplan : buildHandlerPlan callback = .ok plan) :
    (∃ kwargs, plan.kwargs event data = .ok kwargs) ↔
      ∀ parameter ∈ callback.parameters, (callback.source event data parameter).isSome = true := by
  rw [buildHandlerPlan_eq_ok hplan, HandlerPlan.kwargs,
    collect_eq callback.names (fun _ _ _ hentry => by cases hentry), ← find?_isNone_eq_none]
  cases callback.parameters.find? fun parameter => (callback.source event data parameter).isNone with
  | none => exact ⟨fun _ => rfl, fun _ => ⟨_, rfl⟩⟩
  | some parameter => exact ⟨fun ⟨kwargs, hkwargs⟩ => (by cases hkwargs), fun h => (by cases h)⟩

end Collect

/-- An event of an observer, with nothing but what every event of the observer has. -/
def sampleEvent : ObserverName → Routed
  | .message => sample none (.message "" none none none none)
  | .action => sample none (.action "" [] [] none none none)
  | .command => sample none (.command 0 none (some .slashCommand) none none none)
  | .slashCommand => sample none (.command 0 none (some .slashCommand) none none none)
  | .quickCommand => sample none (.command 0 none (some .quickCommand) none none none)
  | .messageAction => sample none (.command 0 none (some .messageAction) none none none)
  | .addedToSpace => sample none .addedToSpace
  | .removedFromSpace => sample none .removedFromSpace
  | .widgetUpdated => sample none (.widgetUpdated "" [] [])
  | .appHome => sample none .appHome
  | .formSubmit => sample none (.formSubmit "" [] [])
  | .dialogSubmit => sample (some ⟨.submitDialog, true⟩) (.action "" [] [] none none none)
  | .dialogCancel => sample (some ⟨.cancelDialog, true⟩) (.action "" [] [] none none none)
  | .event => .other "event"
  | .unknownEvent => sample none (.unknown "")
  | .error => .error (.other "event") ⟨["Exception"], [], true, none, none⟩
where
  sample (dialog : Option DialogMetadata) (body : EventBody) : Routed :=
    .event ⟨.null, none, none, none, none, dialog, none, none, body⟩

/-- `async def greet(message, *, bot, page: int = 1)` -/
def greet : Callback Id Nat where
  module := some "app"
  qualname := some "greet"
  repr := "<function greet>"
  isCoroutineFunction := true
  callIsCoroutineFunction := false
  signature := some ⟨[⟨"message", .positionalOrKeyword, .empty, none⟩, ⟨"bot", .keywordOnly, .empty, none⟩,
    ⟨"page", .keywordOnly, .other, some 1⟩], by decide⟩
  hints := some [("page", .other)]
  body := fun arguments => some (.ok arguments.length)

theorem greet_plan : buildHandlerPlan greet = .ok greet.plan := rfl

theorem greet_invoked :
    greet.plan.invoke (sampleEvent .message) [("bot", 0)] = .ok 3 ∧
      greet.plan.invoke (sampleEvent .message) [] = .error (.exception
        (greet.failure (sampleEvent .message) ⟨"bot", .keywordOnly, .empty, none⟩)) :=
  ⟨(invoke_eq greet_plan _ _).trans rfl, (invoke_eq greet_plan _ _).trans rfl⟩

/-! ## The handlers of an observer -/

def observerClasses : ObserverName → List String
  | .message => ["MessageEvent", "Event"]
  | .action => ["ActionEvent", "Event"]
  | .command => ["CommandEvent", "Event"]
  | .slashCommand => ["CommandEvent", "Event"]
  | .quickCommand => ["CommandEvent", "Event"]
  | .messageAction => ["CommandEvent", "Event"]
  | .addedToSpace => ["AddedToSpaceEvent", "Event"]
  | .removedFromSpace => ["RemovedFromSpaceEvent", "Event"]
  | .widgetUpdated => ["WidgetUpdatedEvent", "Event"]
  | .appHome => ["AppHomeEvent", "Event"]
  | .formSubmit => ["FormSubmitEvent", "Event"]
  | .dialogSubmit => ["ActionEvent", "Event"]
  | .dialogCancel => ["ActionEvent", "Event"]
  | .event => ["Event"]
  | .unknownEvent => ["UnknownEvent", "Event"]
  | .error => ["ErrorEvent", "Event"]

/-- The names that stand for the event in every handler of an observer. -/
def observerAliases : ObserverName → List String
  | .message => ["event", "message"]
  | .action => ["event", "action"]
  | .command => ["event", "command"]
  | .slashCommand => ["event", "command"]
  | .quickCommand => ["event", "command"]
  | .messageAction => ["event", "command"]
  | .addedToSpace => ["event", "added_to_space"]
  | .removedFromSpace => ["event", "removed_from_space"]
  | .widgetUpdated => ["event", "widget"]
  | .appHome => ["event", "app_home"]
  | .formSubmit => ["event", "form"]
  | .dialogSubmit => ["event", "action", "dialog_submit"]
  | .dialogCancel => ["event", "action", "dialog_cancel"]
  | .event => ["event"]
  | .unknownEvent => ["event", "unknown"]
  | .error => ["event", "error", "error_event"]

/-- The parameter gets something for every event of the observer, with these keys in the context. -/
def Callback.injectable (callback : Callback m V) (name : ObserverName) (keys : List String)
    (parameter : Parameter V) : Bool :=
  if (eventTypes (callback.hint parameter)).isEmpty then
    ((callback.parameterPlan parameter).eventAlias && (observerAliases name).contains parameter.name) ||
      keys.contains parameter.name || parameter.default.isSome
  else (eventTypes (callback.hint parameter)).any (observerClasses name).contains

def Routed.classes (event : Routed) : List String := [event.className, "Event"]

theorem contains_classes (event : Routed) (cls : String) :
    event.classes.contains cls = event.isInstance cls := by
  rw [Routed.classes, Routed.isInstance, List.contains_cons, List.contains_cons, List.contains_nil,
    Bool.or_false]

theorem specific_offered {name : ObserverName} {event : Routed} (h : name ∈ specificObserverNames event) :
    observerClasses name = event.classes ∧ observerAliases name = eventAliases event := by
  cases event with
  | error source exception =>
    rw [List.mem_singleton.mp h]
    exact ⟨rfl, rfl⟩
  | other eventType => cases h
  | event event =>
    obtain ⟨raw, eventTime, actor, space, thread, dialog, locale, timezone, body⟩ := event
    cases body with
    | command commandId commandType kind sourceKind messageText targetMessage =>
      cases kind with
      | none => cases h
      | some kind =>
        cases kind <;> obtain rfl | h := List.mem_cons.mp h
        all_goals first | exact ⟨rfl, rfl⟩ | (rw [List.mem_singleton.mp h]; exact ⟨rfl, rfl⟩)
    | action name parameters formInputs senderType source message =>
      cases dialog with
      | none =>
        rw [List.mem_singleton.mp h]
        exact ⟨rfl, rfl⟩
      | some dialog =>
        obtain ⟨type, isDialogEvent⟩ := dialog
        cases type <;> rw [List.mem_singleton.mp h] <;> exact ⟨rfl, rfl⟩
    | _ =>
      rw [List.mem_singleton.mp h]
      exact ⟨rfl, rfl⟩

theorem event_mem_aliases (event : Routed) : "event" ∈ eventAliases event := by
  cases event with
  | error source exception => exact List.mem_cons_self
  | other eventType => exact List.mem_cons_self
  | event event =>
    obtain ⟨raw, eventTime, actor, space, thread, dialog, locale, timezone, body⟩ := event
    cases body with
    | action name parameters formInputs senderType source message =>
      cases dialog with
      | none => exact List.mem_cons_self
      | some dialog =>
        obtain ⟨type, isDialogEvent⟩ := dialog
        cases type <;> exact List.mem_cons_self
    | _ => exact List.mem_cons_self

/-- What every event of an observer has. -/
theorem offered {name : ObserverName} {event : Routed} (h : name ∈ observerNames event) :
    observerClasses name ⊆ event.classes ∧ observerAliases name ⊆ eventAliases event := by
  obtain hspecific | hevent := List.mem_append.mp h
  · obtain ⟨hclasses, haliases⟩ := specific_offered hspecific
    exact ⟨hclasses ▸ List.Subset.refl _, haliases ▸ List.Subset.refl _⟩
  · obtain rfl : name = .event := by
      split at hevent
      · cases hevent
      · exact List.mem_singleton.mp hevent
    refine ⟨List.cons_subset.mpr ⟨?_, List.nil_subset _⟩, List.cons_subset.mpr ⟨?_, List.nil_subset _⟩⟩
    · exact List.mem_cons_of_mem _ (List.mem_singleton.mpr rfl)
    · exact event_mem_aliases event

theorem sampleEvent_offered (name : ObserverName) :
    name ∈ observerNames (sampleEvent name) ∧
      (∀ cls ∈ (sampleEvent name).classes, cls ∈ observerClasses name) ∧
      eventAliases (sampleEvent name) = observerAliases name := by
  cases name <;> exact ⟨by decide, by decide, rfl⟩

section Injectable

variable {callback : Callback m V} {name : ObserverName} {keys : List String} {event : Routed}
  {data : Context V} {parameter : Parameter V}

theorem source_of_injectable (h : callback.injectable name keys parameter = true)
    (hevent : name ∈ observerNames event) (hdata : ∀ key ∈ keys, (data.lookup key).isSome = true) :
    (callback.source event data parameter).isSome = true := by
  obtain ⟨hclasses, haliases⟩ := offered hevent
  unfold Callback.injectable at h
  unfold Callback.source Callback.given
  split at h
  · next htypes =>
    rw [if_pos htypes, if_pos htypes]
    rw [Bool.or_eq_true, Bool.or_eq_true, Bool.and_eq_true] at h
    split
    · rfl
    · next hno =>
      obtain (⟨halias, hname⟩ | hkey) | hdefault := h
      · refine absurd ?_ hno
        rw [halias, Bool.true_and]
        exact List.contains_iff_mem.mpr (haliases (List.contains_iff_mem.mp hname))
      · obtain ⟨value, hvalue⟩ := Option.isSome_iff_exists.mp (hdata _ (List.contains_iff_mem.mp hkey))
        rw [hvalue]
        rfl
      · obtain ⟨value, hvalue⟩ := Option.isSome_iff_exists.mp hdefault
        rw [hvalue]
        cases data.lookup parameter.name <;> rfl
  · next htypes =>
    have hinstance : (eventTypes (callback.hint parameter)).any event.isInstance = true := by
      obtain ⟨cls, hcls, hoffered⟩ := List.any_eq_true.mp h
      refine List.any_eq_true.mpr ⟨cls, hcls, ?_⟩
      rw [← contains_classes]
      exact List.contains_iff_mem.mpr (hclasses (List.contains_iff_mem.mp hoffered))
    rw [if_neg htypes, if_pos hinstance]
    rfl

theorem lookup_keys [Inhabited V] {key : String} :
    ((keys.map (·, (default : V))).lookup key).isSome = true ↔ key ∈ keys := by
  induction keys with
  | nil => exact ⟨fun h => (by cases h), fun h => (by cases h)⟩
  | cons k keys ih =>
    rw [List.map_cons, List.lookup_cons, List.mem_cons]
    cases hk : key == k with
    | true => exact ⟨fun _ => .inl (eq_of_beq hk), fun _ => rfl⟩
    | false => exact ih.trans (or_iff_right (ne_of_beq_false hk)).symm

theorem injectable_of_source [Inhabited V]
    (h : (callback.source (sampleEvent name) (keys.map (·, default)) parameter).isSome = true) :
    callback.injectable name keys parameter = true := by
  obtain ⟨-, hclasses, haliases⟩ := sampleEvent_offered name
  unfold Callback.source Callback.given at h
  unfold Callback.injectable
  split
  · next htypes =>
    rw [if_pos htypes, if_pos htypes, haliases] at h
    rw [Bool.or_eq_true, Bool.or_eq_true]
    split at h
    · next halias => exact .inl (.inl halias)
    · rw [Option.isSome_or, Bool.or_eq_true, Option.isSome_map, Option.isSome_map] at h
      obtain hkey | hdefault := h
      · exact .inl (.inr (List.contains_iff_mem.mpr (lookup_keys.mp hkey)))
      · exact .inr hdefault
  · next htypes =>
    rw [if_neg htypes, if_neg htypes, Option.or_none] at h
    split at h
    · next hinstance =>
      obtain ⟨cls, hcls, hinstance⟩ := List.any_eq_true.mp hinstance
      rw [← contains_classes] at hinstance
      refine List.any_eq_true.mpr ⟨cls, hcls, ?_⟩
      exact List.contains_iff_mem.mpr (hclasses cls (List.contains_iff_mem.mp hinstance))
    · cases h

end Injectable

/-- **Main result.** The parameters of a handler are resolved for every event of its observer, with every
context that has the given keys, exactly when each of them is the event under a name or a class that all
events of the observer have, one of the keys, or optional without naming a class of events. -/
theorem kwargs_iff [Inhabited V] {callback : Callback m V} {plan : HandlerPlan m V}
    (hplan : buildHandlerPlan callback = .ok plan) (name : ObserverName) (keys : List String) :
    (∀ event data, name ∈ observerNames event → (∀ key ∈ keys, (data.lookup key).isSome = true) →
      ∃ kwargs, plan.kwargs event data = .ok kwargs) ↔
      ∀ parameter ∈ callback.parameters, callback.injectable name keys parameter = true := by
  constructor
  · intro h parameter hparameter
    obtain ⟨hevent, -⟩ := sampleEvent_offered name
    have hresolved := h _ (keys.map (·, default)) hevent fun key hkey => lookup_keys.mpr hkey
    exact injectable_of_source ((kwargs_ok_iff hplan).mp hresolved parameter hparameter)
  · intro h event data hevent hdata
    exact (kwargs_ok_iff hplan).mpr fun parameter hparameter =>
      source_of_injectable (h parameter hparameter) hevent hdata

/-- With a bot in the context, `greet` can answer every message. -/
theorem greet_resolved : ∃ kwargs, greet.plan.kwargs (sampleEvent .message) [("bot", 5)] = .ok kwargs :=
  (kwargs_iff greet_plan .message ["bot"]).mpr (by decide) _ _ (by decide) (by decide)

end Chattice.Routing
