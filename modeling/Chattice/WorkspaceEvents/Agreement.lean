import Chattice.Data.Observed
import Chattice.Dispatcher.Dispatcher
import Chattice.WorkspaceEvents.Runtime
import Mathlib.Data.List.Forall2

/-!
# The two routing runtimes agree

`EventsDispatcher.feed_event` and a pass of `Dispatcher._route_pass` over one observer do the same in
the same order. Only the pass tags the exceptions that go through it, so exceptions are compared
without their tags: the same object has the same classes and the same message.

* `Corresponds` : a router tree and an events router tree with the same handlers and middleware;
* `routePass_agrees` : the two runtimes end alike, in every monad.
-/

namespace Chattice.WorkspaceEvents

open Observed Routing

variable {m : Type → Type} {Ev V : Type}

/-! ## Exceptions without their tags -/

def untagExc (e : Routing.Exc) : Routing.Exc := { e with stage := none, handler := none }

/-- How a computation ends, but for the tags of its exception. -/
def untag {α : Type} : Except Raised α → Except Raised α :=
  Except.mapError (Raised.onException untagExc)

@[simp]
theorem untagExc_attach (e : Routing.Exc) (stage : String) (handler : Option String) :
    untagExc (e.attach stage handler) = untagExc e := by
  rw [Routing.Exc.attach]
  split <;> rfl

theorem untag_untag {α : Type} (ended : Except Raised α) : untag (untag ended) = untag ended := by
  match ended with
  | .ok _ => rfl
  | .error .skipHandler => rfl
  | .error .stopPropagation => rfl
  | .error (.exception e) => rfl
  | .error (.baseException cls) => rfl

/-- Two computations that end alike but for the tags. -/
inductive EndAlike {α : Type} : Except Raised α → Except Raised α → Prop where
  | ok (a : α) : EndAlike (.ok a) (.ok a)
  | skipHandler : EndAlike (.error .skipHandler) (.error .skipHandler)
  | stopPropagation : EndAlike (.error .stopPropagation) (.error .stopPropagation)
  | exception {e e' : Routing.Exc} (h : untagExc e = untagExc e') :
      EndAlike (.error (.exception e)) (.error (.exception e'))
  | baseException (cls : String) :
      EndAlike (.error (.baseException cls)) (.error (.baseException cls))

theorem untag_eq_iff {α : Type} {ended ended' : Except Raised α} :
    untag ended = untag ended' ↔ EndAlike ended ended' := by
  constructor
  · intro h
    rcases ended with (_ | _ | e | cls) | a <;> rcases ended' with (_ | _ | e' | cls') | a' <;>
      simp only [untag, Except.mapError, Raised.onException, reduceCtorEq, Except.error.injEq,
        Except.ok.injEq, Raised.exception.injEq, Raised.baseException.injEq] at h
    · exact .skipHandler
    · exact .stopPropagation
    · exact .exception h
    · exact h ▸ .baseException cls
    · exact h ▸ .ok a
  · intro h
    cases h with
    | ok a => rfl
    | skipHandler => rfl
    | stopPropagation => rfl
    | exception h => exact congrArg (fun e => Except.error (Raised.exception e)) h
    | baseException cls => rfl

/-! ## Corresponding trees -/

/-- How an invocation ends and the context it leaves, but for the tags. -/
def untagNext (ended : Except Raised V × Context V) : Except Raised V × Context V :=
  (untag ended.1, ended.2)

variable [Monad m]

/-- Two invocations that do the same. -/
def NextAgree (next next' : NextHandler m Ev V) : Prop :=
  ∀ event data, SeenAs untagNext (next event data) (next' event data)

/-- The same middleware in both runtimes: around invocations that do the same it does the same. -/
def MiddlewareAgree (item item' : Middleware m Ev V) : Prop :=
  ∀ next next', NextAgree next next' → NextAgree (item next) (item' next')

/-- The same callback with the same filters in both runtimes. -/
structure HandlerAgree (handler : Routing.HandlerObject m Ev V) (handler' : HandlerObject m Ev V) :
    Prop where
  filters : handler.filters = handler'.filters
  plan : handler.plan = handler'.plan

mutual

/-- The two trees have the same shape, the same middleware and, on the observer `name`, which has no
common filters, the same handlers. -/
def Corresponds (name : ObserverName) : Router m Ev V → EventsRouter m Ev V → Prop
  | .mk _ observer middleware children, .mk _ handlers middleware' children' =>
    (observer name).filters = [] ∧ List.Forall₂ HandlerAgree (observer name).handlers handlers ∧
      List.Forall₂ MiddlewareAgree middleware middleware' ∧
      CorrespondAll name children children'

def CorrespondAll (name : ObserverName) : List (Router m Ev V) → List (EventsRouter m Ev V) → Prop
  | [], children' => children' = []
  | child :: children, children' => ∃ child' rest, children' = child' :: rest ∧
      Corresponds name child child' ∧ CorrespondAll name children rest

end

/-- The hooks do nothing that shows: there are none, or they only raise exceptions. -/
structure Silent (hooks : HandlerHooks m Ev V) : Prop where
  before : ∀ event data handler,
    maybeHook (hooks.beforeHandler.map fun hook => hook event data handler) = pure (.ok ())
  after : ∀ event data handler result,
    maybeHook (hooks.afterHandler.map fun hook => hook event data handler result) = pure (.ok ())

/-- Two entries of the walks: the same handlers inside the same middleware. -/
structure EntryAgree (name : ObserverName) (entry : Router m Ev V × List (Middleware m Ev V))
    (entry' : EventsRouter m Ev V × List (Middleware m Ev V)) : Prop where
  filters : (entry.1.observer name).filters = []
  handlers : List.Forall₂ HandlerAgree (entry.1.observer name).handlers entry'.1.handlers
  middleware : List.Forall₂ MiddlewareAgree entry.2 entry'.2

mutual

/-- The walks of corresponding trees agree entry by entry. -/
theorem walk_agree {name : ObserverName} {inherited inherited' : List (Middleware m Ev V)}
    (hinherited : List.Forall₂ MiddlewareAgree inherited inherited') :
    ∀ {router : Router m Ev V} {router' : EventsRouter m Ev V}, Corresponds name router router' →
      List.Forall₂ (EntryAgree name) (router.walk inherited) (router'.walk inherited')
  | .mk _ _ _ _, .mk _ _ _ _, ⟨hfilters, hhandlers, hmiddleware, hchildren⟩ => by
    have hpath := List.rel_append hinherited hmiddleware
    rw [Router.walk, EventsRouter.walk]
    exact .cons ⟨hfilters, hhandlers, hpath⟩ (walkChildren_agree hpath hchildren)

theorem walkChildren_agree {name : ObserverName} {inherited inherited' : List (Middleware m Ev V)}
    (hinherited : List.Forall₂ MiddlewareAgree inherited inherited') :
    ∀ {children : List (Router m Ev V)} {children' : List (EventsRouter m Ev V)},
      CorrespondAll name children children' →
      List.Forall₂ (EntryAgree name) (Router.walkChildren inherited children)
        (EventsRouter.walkChildren inherited' children')
  | [], _, h => by
    rw [CorrespondAll] at h
    subst h
    rw [Router.walkChildren, EventsRouter.walkChildren]
    exact .nil
  | _ :: _, _, h => by
    rw [CorrespondAll] at h
    obtain ⟨child', rest, rfl, hchild, hrest⟩ := h
    rw [Router.walkChildren, EventsRouter.walkChildren]
    exact List.rel_append (walk_agree hinherited hchild) (walkChildren_agree hinherited hrest)

end

/-! ## The copies of the filters and of the invocation -/

omit [Monad m] in
theorem addItems_eq (filter_ : Filter m Ev V) (items : List (Key × V)) (data : Context V) :
    addItems filter_ items data = mergeItems filter_ items data := by
  induction items generalizing data with
  | nil => rfl
  | cons item items ih =>
    obtain ⟨key, value⟩ := item
    cases key with
    | str key => rw [addItems, mergeItems, ih]
    | other => rfl

theorem evaluateFilters_eq [LawfulMonad m] (event : Ev) (filters : List (Filter m Ev V))
    (data : Context V) :
    evaluateFilters event filters data = Routing.evaluateFilters event filters data := by
  induction filters generalizing data with
  | nil => rfl
  | cons filter_ filters ih =>
    rw [evaluateFilters, Routing.evaluateFilters]
    refine bind_congr fun value => ?_
    match value with
    | .error raised => rfl
    | .ok (.bool true) => exact ih data
    | .ok (.bool false) => rfl
    | .ok (.other typeName) => rfl
    | .ok (.mapping items) =>
      dsimp only
      rw [addItems_eq]
      cases mergeItems filter_ items data with
      | error e => rfl
      | ok data => exact ih data

variable [LawfulMonad m]

theorem resolvedHandler_agree {handler : Routing.HandlerObject m Ev V}
    {handler' : HandlerObject m Ev V} (h : HandlerAgree handler handler') :
    NextAgree (Routing.resolvedHandler handler) (resolvedHandler handler') := by
  intro event data
  rw [Routing.resolvedHandler, resolvedHandler, h.plan]
  refine SeenAs.bind_left _ fun ended => ?_
  match ended with
  | .ok result => exact SeenAs.refl _ _
  | .error .skipHandler => exact SeenAs.refl _ _
  | .error .stopPropagation => exact SeenAs.refl _ _
  | .error (.baseException cls) => exact SeenAs.refl _ _
  | .error (.exception e) =>
    refine seenAs_pure (Prod.ext (untag_eq_iff.mpr (.exception ?_)) rfl)
    dsimp only
    split <;> exact untagExc_attach e _ _

theorem invoke_agree {handler : Routing.HandlerObject m Ev V} {handler' : HandlerObject m Ev V}
    (h : HandlerAgree handler handler') {middleware middleware' : List (Middleware m Ev V)}
    (hmiddleware : List.Forall₂ MiddlewareAgree middleware middleware') :
    NextAgree (Routing.invoke handler middleware) (invoke handler' middleware') := by
  induction hmiddleware with
  | nil => exact resolvedHandler_agree h
  | cons hitem _ ih => exact hitem _ _ ih

theorem tryHandler_agree {hooks : HandlerHooks m Ev V} (hsilent : Silent hooks) (event : Ev)
    {handler : Routing.HandlerObject m Ev V} {handler' : HandlerObject m Ev V}
    (h : HandlerAgree handler handler') {middleware middleware' : List (Middleware m Ev V)}
    (hmiddleware : List.Forall₂ MiddlewareAgree middleware middleware') (data : Context V) :
    SeenAs untag (Routing.tryHandler hooks middleware event handler data)
      (tryHandler middleware' event handler' data) := by
  rw [Routing.tryHandler, tryHandler, evaluateFilters_eq, h.filters]
  refine SeenAs.bind_left _ fun matched => ?_
  match matched with
  | .ok none => exact SeenAs.refl _ _
  | .error .skipHandler => exact SeenAs.refl _ _
  | .error .stopPropagation => exact SeenAs.refl _ _
  | .error (.baseException cls) => exact SeenAs.refl _ _
  | .error (.exception e) =>
    exact seenAs_pure (untag_eq_iff.mpr (.exception (untagExc_attach e _ _)))
  | .ok (some data) =>
    simp only [runHandler, hsilent.before, pure_bind]
    refine SeenAs.bind (fun ended => ?_) (invoke_agree h hmiddleware event data) ?_
    · exact Prod.ext (untag_untag ended.1) rfl
    · rintro ⟨ended, left⟩ ⟨ended', left'⟩ hseen
      obtain ⟨hended, rfl⟩ := Prod.mk.inj hseen
      cases untag_eq_iff.mp hended with
      | ok a => exact SeenAs.refl _ _
      | skipHandler => exact SeenAs.refl _ _
      | stopPropagation => exact SeenAs.refl _ _
      | baseException cls => exact SeenAs.refl _ _
      | exception he => exact seenAs_pure (untag_eq_iff.mpr (.exception he))

/-! ## The loops -/

/-- The loop over the handlers: what the pass returns has the result that the feed returns. -/
theorem routeHandlers_agree {hooks : HandlerHooks m Ev V} (hsilent : Silent hooks) (event : Ev)
    {middleware middleware' : List (Middleware m Ev V)}
    (hmiddleware : List.Forall₂ MiddlewareAgree middleware middleware') (data : Context V)
    {handlers : List (Routing.HandlerObject m Ev V)} {handlers' : List (HandlerObject m Ev V)}
    (h : List.Forall₂ HandlerAgree handlers handlers') :
    SeenAs untag
      (Except.map (Option.map DispatchOutcome.result) <$>
        routeHandlers hooks middleware event data handlers)
      (feedHandlers middleware' event data handlers') := by
  induction h with
  | nil => exact congrArg (untag <$> ·) (map_pure _ _)
  | cons hhandler _ ih =>
    rw [routeHandlers, feedHandlers, map_bind]
    refine SeenAs.bind untag_untag (tryHandler_agree hsilent event hhandler hmiddleware data) ?_
    intro ended ended' hseen
    cases untag_eq_iff.mp hseen with
    | ok found =>
      match found with
      | none => exact ih
      | some (result, left) =>
        simp only [settle, finish, hsilent.after, pure_bind, map_pure]
        exact SeenAs.refl _ _
    | skipHandler => exact ih
    | stopPropagation =>
      simp only [settle, map_pure]
      exact SeenAs.refl _ _
    | baseException cls =>
      simp only [settle, map_pure]
      exact SeenAs.refl _ _
    | exception he =>
      simp only [settle, map_pure]
      refine seenAs_pure (untag_eq_iff.mpr (.exception ?_))
      dsimp only
      split
      · exact (untagExc_attach _ _ _).trans he
      · exact he

/-- What the pass over the walk makes of the end of the loop over the handlers of one router. -/
def goOn (later : m (Except Raised (Option V))) :
    Except Raised (Option (Option V)) → m (Except Raised (Option V))
  | .error raised => pure (.error raised)
  | .ok none => later
  | .ok (some result) => pure (.ok result)

theorem goOn_agree {later later' : m (Except Raised (Option V))} (h : SeenAs untag later later')
    {ended ended' : Except Raised (Option (Option V))} (hended : untag ended = untag ended') :
    SeenAs untag (goOn later ended) (goOn later' ended') := by
  cases untag_eq_iff.mp hended with
  | ok found =>
    cases found with
    | none => exact h
    | some result => exact SeenAs.refl _ _
  | skipHandler => exact SeenAs.refl _ _
  | stopPropagation => exact SeenAs.refl _ _
  | baseException cls => exact SeenAs.refl _ _
  | exception he => exact seenAs_pure (untag_eq_iff.mpr (.exception he))

theorem routeWalk_agree {hooks : HandlerHooks m Ev V} (hsilent : Silent hooks) (event : Ev)
    (data : Context V) {name : ObserverName}
    {routers : List (Router m Ev V × List (Middleware m Ev V))}
    {routers' : List (EventsRouter m Ev V × List (Middleware m Ev V))}
    (h : List.Forall₂ (EntryAgree name) routers routers') :
    SeenAs untag
      (Except.map DispatchOutcome.result <$> routeWalk hooks event data name routers)
      (feedWalk event data routers') := by
  induction h with
  | nil => exact congrArg (untag <$> ·) (map_pure _ _)
  | @cons entry entry' routers routers' hentry _ ih =>
    obtain ⟨router, middleware⟩ := entry
    obtain ⟨router', middleware'⟩ := entry'
    obtain ⟨hfilters, hhandlers, hmiddleware⟩ := hentry
    dsimp only at hfilters hhandlers hmiddleware
    have hloop := routeHandlers_agree hsilent event hmiddleware data hhandlers
    rw [routeWalk, feedWalk]
    split
    next hempty =>
      -- a router without handlers is passed over on both sides
      rw [hempty, List.forall₂_nil_left_iff] at hhandlers
      rw [hhandlers, feedHandlers, pure_bind]
      exact ih
    next =>
      rw [hfilters, Routing.evaluateFilters, pure_bind]
      refine (congrArg (untag <$> ·) ?_).trans
        (SeenAs.bind untag_untag hloop fun _ _ hended => goOn_agree ih hended)
      -- what the pass does with the outcome of the handlers is `goOn`
      rw [map_bind, bind_map_left]
      refine bind_congr fun ended => ?_
      rcases ended with raised | (_ | outcome)
      · exact map_pure _ _
      · rfl
      · exact map_pure _ _

/-- **Main result.** On corresponding trees `feed_event` returns the result of the routing pass, or
raises the same exception, and in between it does the same, whatever filters, middleware and handlers
do: this holds in every monad, so also in one that records the invocations. -/
theorem routePass_agrees {hooks : HandlerHooks m Ev V} (hsilent : Silent hooks) {name : ObserverName}
    {root : Router m Ev V} {root' : EventsRouter m Ev V} (h : Corresponds name root root')
    (event : Ev) (data : Context V) :
    SeenAs untag (Except.map DispatchOutcome.result <$> routePass hooks root event data name)
      (feedEvent root' event data) :=
  routeWalk_agree hsilent event data (walk_agree .nil h)

section Example

def ran (name : String) : StateM (List String) Unit :=
  modify (· ++ [name])

/-- A middleware that records that it runs, and calls what it stands around. -/
def recorded (name : String) : Middleware (StateM (List String)) Unit Nat := fun next event data => do
  ran name
  next event data

theorem recorded_agree (name : String) : MiddlewareAgree (recorded name) (recorded name) :=
  fun _ _ h event data => SeenAs.bind_left _ fun _ => h event data

def answered (name : String) (ended : Except Raised (FilterValue Nat)) :
    Filter (StateM (List String)) Unit Nat :=
  ⟨name, fun _ _ => do
    ran name
    return ended⟩

def skipped (_ : Unit) (_ : Context Nat) : StateM (List String) (Except Raised Nat) := do
  ran "skipped"
  return .error .skipHandler

def entries (_ : Unit) (data : Context Nat) : StateM (List String) (Except Raised Nat) := do
  ran "entries"
  return .ok data.length

def refusing : Filter (StateM (List String)) Unit Nat := answered "refusing" (.ok (.bool false))

def adding : Filter (StateM (List String)) Unit Nat :=
  answered "adding" (.ok (.mapping [(.str "member", 7)]))

/-- A filter refuses the handler of the root; of the two of the child the first one skips. -/
def pushed : Router (StateM (List String)) Unit Nat :=
  .mk "root" (fun _ => ⟨[], [⟨"app.refused", [refusing], entries⟩]⟩) [recorded "outer"]
    [.mk "child" (fun _ => ⟨[], [⟨"app.skipped", [], skipped⟩, ⟨"app.entries", [adding], entries⟩]⟩)
      [recorded "inner"] []]

def pushed' : EventsRouter (StateM (List String)) Unit Nat :=
  .mk "root" [⟨[refusing], entries⟩] [recorded "outer"]
    [.mk "child" [⟨[], skipped⟩, ⟨[adding], entries⟩] [recorded "inner"] []]

theorem pushed_corresponds : Corresponds .event pushed pushed' := by
  refine ⟨rfl, .cons ⟨rfl, rfl⟩ .nil, .cons (recorded_agree "outer") .nil, _, [], rfl, ?_, rfl⟩
  exact ⟨rfl, .cons ⟨rfl, rfl⟩ (.cons ⟨rfl, rfl⟩ .nil), .cons (recorded_agree "inner") .nil, rfl⟩

theorem pushed_agrees :
    SeenAs untag (Except.map DispatchOutcome.result <$>
          routePass ⟨none, none⟩ pushed () [("bot", 0)] .event)
        (feedEvent pushed' () [("bot", 0)]) ∧
      (feedEvent pushed' () [("bot", 0)]).run [] = (.ok (some 2), ["refusing",
        "outer", "inner", "skipped", "adding", "outer", "inner", "entries"]) :=
  ⟨routePass_agrees ⟨fun _ _ _ => rfl, fun _ _ _ _ => rfl⟩ pushed_corresponds () [("bot", 0)], rfl⟩

end Example

end Chattice.WorkspaceEvents
