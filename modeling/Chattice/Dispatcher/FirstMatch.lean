import Chattice.Dispatcher.Dispatcher

/-!
# Dispatch is first match in a fixed order

The reference: one flat list of candidates, ordered by observer name, then by router in preorder,
then by registration, and a search for the first of them that decides. It shares with the dispatcher
what users supply (filters, handlers, middleware, hooks), the merging of one mapping and the report
of an event that nothing handles.

* `Router.preorder`, `candidates` : the flat list;
* `additions` : the filters over a fixed context, collecting apart the mappings they add to it;
* `Candidate.attempt` : what one candidate decides, outcome by outcome;
* `firstMatch` : the search, each candidate judged by itself from the dispatcher's context;
* `search` : the same search evaluating the filters of an observer once, at its first candidate;
* `routeEvent_first_match` : `_route_event` is this search.
-/

namespace Chattice.Routing

variable {m : Type → Type} {Ev V : Type}

/-! ## The routers in preorder -/

namespace Router

def middleware : Router m Ev V → List (Middleware m Ev V)
  | mk _ _ middleware _ => middleware

/-- A router over the entries of its children: each path starts at it. -/
def under (root : Router m Ev V) (entries : List (Router m Ev V × List (Router m Ev V))) :
    List (Router m Ev V × List (Router m Ev V)) :=
  (root, [root]) :: entries.map fun entry => (entry.1, root :: entry.2)

mutual

/-- The routers in preorder, each with the path down to it: first the root, then the trees of its
children in their order. -/
def preorder : Router m Ev V → List (Router m Ev V × List (Router m Ev V))
  | mk name observer middleware children =>
    (mk name observer middleware children).under (preorderChildren children)

def preorderChildren : List (Router m Ev V) → List (Router m Ev V × List (Router m Ev V))
  | [] => []
  | child :: children => preorder child ++ preorderChildren children

end

/-- The routers in preorder, each with the middleware of its path, the root's first. -/
def placed (root : Router m Ev V) : List (Router m Ev V × List (Middleware m Ev V)) :=
  root.preorder.map fun entry => (entry.1, entry.2.flatMap Router.middleware)

mutual

/-- `_walk` goes through the routers in preorder. -/
theorem walk_eq (inherited : List (Middleware m Ev V)) (root : Router m Ev V) :
    root.walk inherited =
      root.preorder.map fun entry => (entry.1, inherited ++ entry.2.flatMap middleware) := by
  obtain ⟨name, observer, own, children⟩ := root
  rw [walk, preorder, under, List.map_cons, List.map_map, walkChildren_eq]
  simp [middleware, Function.comp_def]

theorem walkChildren_eq (inherited : List (Middleware m Ev V)) (children : List (Router m Ev V)) :
    walkChildren inherited children =
      (preorderChildren children).map fun entry =>
        (entry.1, inherited ++ entry.2.flatMap middleware) := by
  match children with
  | [] => rfl
  | child :: children =>
    rw [walkChildren, preorderChildren, List.map_append, walk_eq inherited child,
      walkChildren_eq inherited children]

end

theorem walk_eq_placed (root : Router m Ev V) : root.walk [] = root.placed :=
  root.walk_eq []

end Router

/-! ## The own mappings of a list of filters -/

def entries : List (Key × V) → Context V
  | [] => []
  | (.str key, value) :: items => (key, value) :: entries items
  | (.other, _) :: items => entries items

theorem mergeItems_eq_ok {filter_ : Filter m Ev V} {items : List (Key × V)}
    {data merged : Context V} (h : mergeItems filter_ items data = .ok merged) :
    merged = data ++ entries items := by
  induction items generalizing data with
  | nil =>
    rw [mergeItems, Except.ok.injEq] at h
    rw [entries, List.append_nil, h]
  | cons item items ih =>
    obtain ⟨key, value⟩ := item
    cases key with
    | other => cases h
    | str key =>
      rw [mergeItems] at h
      by_cases hkey : data.has key
      · rw [if_pos hkey] at h
        cases h
      · rw [if_neg hkey] at h
        rw [ih h, entries, List.append_assoc, List.singleton_append]

variable [Monad m]

/-- Evaluate the filters over the fixed context `data`, collecting apart what they add to it: each
sees `data` and, after it, the mappings of the filters before it in the same list. -/
def additions (event : Ev) (data : Context V) :
    List (Filter m Ev V) → Context V → m (Except Raised (Option (Context V)))
  | [], added => pure (.ok (some added))
  | filter_ :: filters, added => do
    match ← filter_.call event (data ++ added) with
    | .error raised => pure (.error raised)
    | .ok (.bool true) => additions event data filters added
    | .ok (.bool false) => pure (.ok none)
    | .ok (.other typeName) => pure (.error (.exception (filter_.unsupported typeName)))
    | .ok (.mapping items) =>
      match mergeItems filter_ items (data ++ added) with
      | .error e => pure (.error (.exception e))
      | .ok _ => additions event data filters (added ++ entries items)

theorem evaluateFilters_eq [LawfulMonad m] (event : Ev) (data : Context V)
    (filters : List (Filter m Ev V)) (added : Context V) :
    evaluateFilters event filters (data ++ added) =
      Except.map (Option.map (data ++ ·)) <$> additions event data filters added := by
  induction filters generalizing added with
  | nil =>
    rw [evaluateFilters, additions, map_pure]
    rfl
  | cons filter_ filters ih =>
    rw [evaluateFilters, additions, map_bind]
    apply bind_congr
    intro value
    match value with
    | .error raised => rw [map_pure]; rfl
    | .ok (.bool true) => exact ih added
    | .ok (.bool false) => rw [map_pure]; rfl
    | .ok (.other typeName) => rw [map_pure]; rfl
    | .ok (.mapping items) =>
      simp only
      cases hmerge : mergeItems filter_ items (data ++ added) with
      | error e => rw [map_pure]; rfl
      | ok merged =>
        simp only
        rw [mergeItems_eq_ok hmerge, List.append_assoc]
        exact ih (added ++ entries items)

/-! ## The flat list -/

/-- A handler with what stands around it: the filters of its observer and the middleware of the path
to its router. The first candidate of an observer is the `opening` one. -/
structure Candidate (m : Type → Type) (Ev V : Type) where
  filters : List (Filter m Ev V)
  middleware : List (Middleware m Ev V)
  handler : HandlerObject m Ev V
  opening : Bool

def EventObserver.candidates (observer : EventObserver m Ev V)
    (middleware : List (Middleware m Ev V)) : List (Candidate m Ev V) :=
  match observer.handlers with
  | [] => []
  | handler :: handlers =>
    ⟨observer.filters, middleware, handler, true⟩ ::
      handlers.map fun handler => ⟨observer.filters, middleware, handler, false⟩

/-- The candidates of the observers of one name, router by router. -/
def passCandidates (name : ObserverName) (routers : List (Router m Ev V × List (Middleware m Ev V))) :
    List (Candidate m Ev V) :=
  routers.flatMap fun entry => (entry.1.observer name).candidates entry.2

/-- The observers an event is offered to. Only an `ErrorEvent` is not offered to `event`. -/
def observerNames (event : Routed) : List ObserverName :=
  specificObserverNames event ++ if event.isErrorEvent then [] else [.event]

def candidates (root : Router m Routed V) (event : Routed) : List (Candidate m Routed V) :=
  (observerNames event).flatMap fun name => passCandidates name root.placed

/-! ## The search -/

/-- What a candidate, or a search, comes to: nothing is decided, routing ends unhandled, the handler
has returned, or an exception propagates. -/
inductive Decision (V : Type) where
  | passed
  | stopped
  | handled (result : V)
  | raised (raised : Raised)

/-- Where nothing is decided, `next` decides. -/
def Decision.orElse (found next : m (Decision V)) : m (Decision V) := do
  match ← found with
  | .passed => next
  | decided => pure decided

/-- A hook that raises an ordinary exception is ignored. -/
def Decision.afterHook (hook : Option (m (Except Raised Unit))) (failed : Raised → Decision V)
    (next : m (Decision V)) : m (Decision V) :=
  match hook with
  | none => next
  | some call => do
    match ← call with
    | .ok () | .error (.exception _) => next
    | .error r => pure (failed r)

/-- What a list of filters decides; `handler` is the one whose own filters they are. -/
def Decision.afterFilters (handler : Option String) (next : Context V → m (Decision V)) :
    Except Raised (Option (Context V)) → m (Decision V)
  | .ok (some added) => next added
  | .ok none => pure .passed
  | .error .skipHandler => pure .passed
  | .error .stopPropagation => pure .stopped
  | .error (.exception e) => pure (.raised (.exception (e.attach "filter" handler)))
  | .error (.baseException cls) => pure (.raised (.baseException cls))

/-- The handler within the middleware, the first of which is the outermost. -/
def wrapped (handler : NextHandler m Ev V) : List (Middleware m Ev V) → NextHandler m Ev V
  | [] => handler
  | item :: rest => item (wrapped handler rest)

namespace Candidate

/-- The handler itself. An exception carries the stage it comes from. -/
def callback (c : Candidate m Ev V) : NextHandler m Ev V := fun event data => do
  match ← c.handler.plan event data with
  | .ok result => pure (.ok result, data)
  | .error (.exception e) =>
    let stage :=
      if e.isInstance "DependencyResolutionError" then "dependency_resolution" else "handler"
    pure (.error (.exception (e.attach stage (some c.handler.qualifiedName))), data)
  | .error raised => pure (.error raised, data)

/-- What is raised once the filters have passed: `SkipHandler` passes, `StopPropagation` ends
routing, an exception propagates; one without a stage comes from a middleware. -/
def escaped (c : Candidate m Ev V) : Raised → Decision V
  | .skipHandler => .passed
  | .stopPropagation => .stopped
  | .exception e =>
    if e.failureStage = "unknown" then
      .raised (.exception (e.attach "middleware" (some c.handler.qualifiedName)))
    else .raised (.exception e)
  | .baseException cls => .raised (.baseException cls)

/-- The candidate once its filters have passed: the hook before the handler, the handler, and the
hook after it, which is outside of routing control. -/
def run (c : Candidate m Ev V) (hooks : HandlerHooks m Ev V) (event : Ev) (data : Context V) :
    m (Decision V) :=
  Decision.afterHook (hooks.beforeHandler.map fun hook => hook event data c.handler.qualifiedName)
    c.escaped do
      match ← wrapped c.callback c.middleware event data with
      | (.error raised, _) => pure (c.escaped raised)
      | (.ok result, left) =>
        Decision.afterHook (hooks.afterHandler.map fun hook =>
          hook event left c.handler.qualifiedName result) .raised (pure (.handled result))

/-- What the candidate decides over the dispatcher's context `data`, given the answer of its
observer's filters. Its handler sees `data`, what its observer's filters added and what its own
filters added, nothing else. -/
def attempt (c : Candidate m Ev V) (hooks : HandlerHooks m Ev V) (event : Ev) (data : Context V)
    (common : Except Raised (Option (Context V))) : m (Decision V) :=
  Decision.afterFilters none (fun added => do
    let own ← additions event data c.handler.filters added
    Decision.afterFilters (some c.handler.qualifiedName)
      (fun added => c.run hooks event (data ++ added)) own) common

end Candidate

/-- The first candidate that does not pass decides. -/
def firstMatch (hooks : HandlerHooks m Ev V) (event : Ev) (data : Context V) :
    List (Candidate m Ev V) → m (Decision V)
  | [] => pure .passed
  | c :: rest => do
    let common ← additions event data c.filters []
    Decision.orElse (c.attempt hooks event data common) (firstMatch hooks event data rest)

/-- The answer of the filters of a candidate's observer: they run for the opening candidate, and
what they answered is carried to the others. -/
def Candidate.answer (c : Candidate m Ev V) (event : Ev) (data : Context V)
    (carried : Except Raised (Option (Context V))) : m (Except Raised (Option (Context V))) :=
  if c.opening then additions event data c.filters [] else pure carried

/-- The same search where the filters of an observer run once. -/
def search (hooks : HandlerHooks m Ev V) (event : Ev) (data : Context V) :
    Except Raised (Option (Context V)) → List (Candidate m Ev V) → m (Decision V)
  | _, [] => pure .passed
  | carried, c :: rest => do
    let common ← c.answer event data carried
    Decision.orElse (c.attempt hooks event data common) (search hooks event data common rest)

/-! ## Lists that open -/

section Opens

/-- The list starts with an opening candidate, if it has any. -/
def Opens (l : List (Candidate m Ev V)) : Prop := ∀ c ∈ l.head?, c.opening = true

omit [Monad m]

theorem Opens.append {l rest : List (Candidate m Ev V)} (hl : Opens l) (hrest : Opens rest) :
    Opens (l ++ rest) := by
  cases l with
  | nil => exact hrest
  | cons c l => exact hl

theorem Opens.flatMap {α : Type} {f : α → List (Candidate m Ev V)} (hf : ∀ a, Opens (f a)) :
    ∀ l : List α, Opens (l.flatMap f)
  | [] => nofun
  | a :: l => (hf a).append (Opens.flatMap hf l)

theorem opens_candidates (observer : EventObserver m Ev V) (middleware : List (Middleware m Ev V)) :
    Opens (observer.candidates middleware) := by
  intro c hc
  unfold EventObserver.candidates at hc
  split at hc
  · cases hc
  · cases hc
    rfl

theorem opens_passCandidates (name : ObserverName)
    (routers : List (Router m Ev V × List (Middleware m Ev V))) :
    Opens (passCandidates name routers) := by
  apply Opens.flatMap
  intro entry
  exact opens_candidates (entry.1.observer name) entry.2

theorem opens_names (routers : List (Router m Ev V × List (Middleware m Ev V)))
    (names : List ObserverName) : Opens (names.flatMap fun name => passCandidates name routers) :=
  Opens.flatMap (fun name => opens_passCandidates name routers) names

end Opens

/-! ## One pass is the search of its candidates -/

namespace Decision

/-- The outcome of a search. -/
def outcome : Decision V → Except Raised (DispatchOutcome V)
  | .passed => .ok {}
  | .stopped => .ok { stopped := true }
  | .handled result => .ok { handled := true, result := some result }
  | .raised r => .error r

/-- The outcome of a loop, which may end without one. -/
def found : Decision V → Except Raised (Option (DispatchOutcome V))
  | .passed => .ok none
  | .stopped => .ok (some { stopped := true })
  | .handled result => .ok (some { handled := true, result := some result })
  | .raised r => .error r

end Decision

section Pass

variable [LawfulMonad m] {hooks : HandlerHooks m Ev V} {event : Ev} {data : Context V}

theorem orElse_assoc (found next last : m (Decision V)) :
    Decision.orElse (Decision.orElse found next) last =
      Decision.orElse found (Decision.orElse next last) := by
  rw [Decision.orElse, Decision.orElse, Decision.orElse, bind_assoc]
  apply bind_congr
  intro decision
  cases decision with
  | passed => rfl
  | stopped => exact pure_bind ..
  | handled result => exact pure_bind ..
  | raised raised => exact pure_bind ..

theorem passed_orElse (next : m (Decision V)) : Decision.orElse (pure .passed) next = next :=
  pure_bind ..

omit [LawfulMonad m] in
/-- What an earlier observer's filters answered is of no account for a list that opens. -/
theorem search_opens {l : List (Candidate m Ev V)} (h : Opens l)
    (common common' : Except Raised (Option (Context V))) :
    search hooks event data common l = search hooks event data common' l := by
  cases l with
  | nil => rfl
  | cons c rest =>
    have hc : c.opening = true := h c rfl
    simp only [search, Candidate.answer, hc, if_true]

theorem search_append {l rest : List (Candidate m Ev V)} (h : Opens rest)
    (common : Except Raised (Option (Context V))) :
    search hooks event data common (l ++ rest) =
      Decision.orElse (search hooks event data common l)
        (search hooks event data (.ok none) rest) := by
  induction l generalizing common with
  | nil =>
    rw [List.nil_append, search, passed_orElse]
    exact search_opens h _ _
  | cons c l ih =>
    rw [List.cons_append, search, search, Decision.orElse, bind_assoc]
    apply bind_congr
    intro answer
    rw [ih, ← orElse_assoc]
    rfl

/-! ### One handler -/

theorem maybeHook_bind (hook : Option (m (Except Raised Unit))) {α : Type}
    {failed : Raised → Decision V} {next : m (Decision V)} {f : Decision V → m α}
    {g : Except Raised Unit → m α} (hok : g (.ok ()) = next >>= f)
    (herror : ∀ raised, g (.error raised) = f (failed raised)) :
    maybeHook hook >>= g = Decision.afterHook hook failed next >>= f := by
  cases hook with
  | none => exact (pure_bind ..).trans hok
  | some call =>
    rw [maybeHook, Decision.afterHook, bind_assoc, bind_assoc]
    apply bind_congr
    intro ended
    have hraised (raised : Raised) : (pure (failed raised) >>= f : m α) = g (.error raised) :=
      (pure_bind ..).trans (herror raised).symm
    cases ended with
    | ok _ => exact (pure_bind ..).trans hok
    | error raised =>
      cases raised with
      | exception e => exact (pure_bind ..).trans hok
      | skipHandler => exact (pure_bind ..).trans (hraised _).symm
      | stopPropagation => exact (pure_bind ..).trans (hraised _).symm
      | baseException cls => exact (pure_bind ..).trans (hraised _).symm

omit [LawfulMonad m] in
theorem resolvedHandler_eq (c : Candidate m Ev V) : resolvedHandler c.handler = c.callback := by
  funext event data
  rw [resolvedHandler, Candidate.callback]
  apply bind_congr
  intro ended
  match ended with
  | .ok result => rfl
  | .error .skipHandler => rfl
  | .error .stopPropagation => rfl
  | .error (.baseException cls) => rfl
  | .error (.exception e) =>
    simp only [Raised.onException]
    split <;> rfl

omit [Monad m] [LawfulMonad m] in
theorem invokeWithMiddleware_eq (handler : NextHandler m Ev V) (middleware : List (Middleware m Ev V)) :
    invokeWithMiddleware handler middleware = wrapped handler middleware := by
  induction middleware with
  | nil => rfl
  | cons item rest ih => exact congrArg item ih

/-- The rest of the loop over the handlers of an observer after what the dispatcher knows of one. -/
def afterVerdict (hooks : HandlerHooks m Ev V) (event : Ev) (handler : HandlerObject m Ev V)
    (next : m (Except Raised (Option (DispatchOutcome V)))) :
    Verdict V → m (Except Raised (Option (DispatchOutcome V)))
  | .passedOver => next
  | .stopped => pure (.ok (some { stopped := true }))
  | .raised raised => pure (.error raised)
  | .completed result data => Except.map some <$> finish hooks event handler result data

/-- The rest of that loop after what the reference decides. -/
def afterDecision (next : m (Except Raised (Option (DispatchOutcome V)))) :
    Decision V → m (Except Raised (Option (DispatchOutcome V)))
  | .passed => next
  | decided => pure decided.found

omit [LawfulMonad m] in
/-- The `except` clauses give what is raised the meaning it has for the reference. -/
theorem afterVerdict_error (c : Candidate m Ev V)
    (next : m (Except Raised (Option (DispatchOutcome V)))) (raised : Raised) :
    afterVerdict hooks event c.handler next (settle c.handler (.error raised)) =
      afterDecision next (c.escaped raised) := by
  cases raised with
  | skipHandler => rfl
  | stopPropagation => rfl
  | baseException cls => rfl
  | exception e =>
    simp only [settle, Raised.onException, Candidate.escaped]
    split <;> rfl

theorem afterVerdict_run (c : Candidate m Ev V) (data : Context V)
    (next : m (Except Raised (Option (DispatchOutcome V)))) :
    (do afterVerdict hooks event c.handler next
          (settle c.handler (← runHandler hooks c.middleware event c.handler data))) =
      c.run hooks event data >>= afterDecision next := by
  rw [runHandler, bind_assoc, Candidate.run]
  refine maybeHook_bind _ ?_ fun raised => (pure_bind ..).trans (afterVerdict_error c next raised)
  rw [invoke, resolvedHandler_eq, invokeWithMiddleware_eq, bind_assoc, bind_assoc]
  apply bind_congr
  intro ended
  match ended with
  | (.error raised, left) =>
    exact (pure_bind ..).trans ((afterVerdict_error c next raised).trans (pure_bind ..).symm)
  | (.ok result, left) =>
    rw [pure_bind, settle, afterVerdict, finish, map_eq_pure_bind, bind_assoc]
    refine maybeHook_bind _ ?_ fun raised => ?_
    · rw [pure_bind, pure_bind]
      rfl
    · rw [pure_bind]
      rfl

omit [Monad m] [LawfulMonad m] in
theorem failureStage_attach (e : Exc) (handler : Option String)
    (h : (e.attach "filter" handler).failureStage = "unknown") : e.taggable = false := by
  by_contra htaggable
  rw [Exc.attach, if_pos (eq_true_of_ne_false htaggable)] at h
  simp [Exc.failureStage] at h

omit [LawfulMonad m] in
theorem afterVerdict_filterFailure (c : Candidate m Ev V)
    (next : m (Except Raised (Option (DispatchOutcome V)))) (e : Exc) :
    afterVerdict hooks event c.handler next
        (settle c.handler (.error (filterFailure c.handler (.exception e)))) =
      pure (.error (.exception (e.attach "filter" (some c.handler.qualifiedName)))) := by
  rw [filterFailure, Raised.onException, afterVerdict_error, Candidate.escaped]
  split
  · next hunknown =>
    have htaggable := failureStage_attach e _ hunknown
    simp [Exc.attach, htaggable, afterDecision, Decision.found]
  · rfl

/-- One handler of the loop over the handlers is one candidate of the search. -/
theorem afterVerdict_attempt (c : Candidate m Ev V) (added : Context V)
    (next : m (Except Raised (Option (DispatchOutcome V)))) :
    (do afterVerdict hooks event c.handler next
          (settle c.handler (← tryHandler hooks c.middleware event c.handler (data ++ added)))) =
      c.attempt hooks event data (.ok (some added)) >>= afterDecision next := by
  rw [tryHandler, evaluateFilters_eq, bind_map_left, bind_assoc, Candidate.attempt,
    Decision.afterFilters, bind_assoc]
  apply bind_congr
  intro answer
  match answer with
  | .error .skipHandler =>
    simp only [Decision.afterFilters, pure_bind, afterDecision]
    exact pure_bind ..
  | .error .stopPropagation =>
    simp only [Decision.afterFilters, pure_bind]
    exact pure_bind ..
  | .error (.baseException cls) =>
    simp only [Decision.afterFilters, pure_bind]
    exact pure_bind ..
  | .error (.exception e) =>
    simp only [Decision.afterFilters, pure_bind]
    exact (pure_bind ..).trans (afterVerdict_filterFailure c next e)
  | .ok none =>
    simp only [Decision.afterFilters, pure_bind]
    exact pure_bind ..
  | .ok (some own) => exact afterVerdict_run c (data ++ own) next

/-! ### One observer -/

theorem found_orElse (first next : m (Decision V)) :
    Decision.found <$> Decision.orElse first next =
      first >>= afterDecision (Decision.found <$> next) := by
  rw [Decision.orElse, map_bind]
  apply bind_congr
  intro decision
  cases decision with
  | passed => rfl
  | stopped => exact map_pure ..
  | handled result => exact map_pure ..
  | raised raised => exact map_pure ..

/-- The loop over the handlers of an observer is the search of its candidates. -/
theorem search_handlers (filters : List (Filter m Ev V)) (middleware : List (Middleware m Ev V))
    (added : Context V) (handlers : List (HandlerObject m Ev V)) :
    routeHandlers hooks middleware event (data ++ added) handlers =
      Decision.found <$> search hooks event data (.ok (some added))
        (handlers.map fun handler => ⟨filters, middleware, handler, false⟩) := by
  induction handlers with
  | nil =>
    rw [List.map_nil, search, routeHandlers, map_pure]
    rfl
  | cons handler handlers ih =>
    rw [List.map_cons, search, Candidate.answer, if_neg Bool.false_ne_true, pure_bind, found_orElse,
      ← ih, ← afterVerdict_attempt, routeHandlers]
    apply bind_congr
    intro ended
    cases settle handler ended <;> rfl

/-- Once the filters of an observer refuse, its remaining candidates are passed over. -/
theorem search_refused {carried : Except Raised (Option (Context V))}
    (h : carried = .ok none ∨ carried = .error .skipHandler) (filters : List (Filter m Ev V))
    (middleware : List (Middleware m Ev V)) (handlers : List (HandlerObject m Ev V)) :
    search hooks event data carried
      (handlers.map fun handler => ⟨filters, middleware, handler, false⟩) = pure .passed := by
  induction handlers with
  | nil => rfl
  | cons handler handlers ih =>
    rw [List.map_cons, search, Candidate.answer, if_neg Bool.false_ne_true, pure_bind, ih]
    obtain rfl | rfl := h
    · exact passed_orElse _
    · exact passed_orElse _

theorem decided_orElse {decision : Decision V} (h : decision ≠ .passed) (next : m (Decision V)) :
    Decision.orElse (pure decision) next = pure decision := by
  rw [Decision.orElse, pure_bind]
  cases decision with
  | passed => exact absurd rfl h
  | stopped => rfl
  | handled result => rfl
  | raised raised => rfl

theorem routeHandlers_bind (filters : List (Filter m Ev V)) (middleware : List (Middleware m Ev V))
    (added : Context V) (handlers : List (HandlerObject m Ev V)) (rest : m (Decision V)) :
    (do match ← routeHandlers hooks middleware event (data ++ added) handlers with
        | .error raised => pure (.error raised)
        | .ok none => Decision.outcome <$> rest
        | .ok (some outcome) => pure (.ok outcome)) =
      Decision.outcome <$> Decision.orElse (search hooks event data (.ok (some added))
        (handlers.map fun handler => ⟨filters, middleware, handler, false⟩)) rest := by
  rw [search_handlers filters, bind_map_left, Decision.orElse, map_bind]
  apply bind_congr
  intro decision
  cases decision with
  | passed => rfl
  | stopped =>
    simp only [map_pure]
    rfl
  | handled result =>
    simp only [map_pure]
    rfl
  | raised raised =>
    simp only [map_pure]
    rfl

theorem routeWalk_cons (name : ObserverName) (router : Router m Ev V)
    (middleware : List (Middleware m Ev V))
    (routers : List (Router m Ev V × List (Middleware m Ev V)))
    (carried : Except Raised (Option (Context V))) {rest : m (Decision V)}
    (hrest : routeWalk hooks event data name routers = Decision.outcome <$> rest) :
    routeWalk hooks event data name ((router, middleware) :: routers) =
      Decision.outcome <$> Decision.orElse
        (search hooks event data carried ((router.observer name).candidates middleware)) rest := by
  rw [routeWalk, hrest, EventObserver.candidates]
  obtain ⟨filters, handlers⟩ := router.observer name
  cases handlers with
  | nil => rw [if_pos rfl, search, passed_orElse]
  | cons handler handlers =>
    have hdata : evaluateFilters event filters data =
        Except.map (Option.map (data ++ ·)) <$> additions event data filters [] := by
      rw [← evaluateFilters_eq, List.append_nil]
    have hpassed : ∀ tail, tail = pure .passed → Decision.outcome <$> rest =
        Decision.outcome <$> Decision.orElse (Decision.orElse (pure .passed) tail) rest := by
      rintro tail rfl
      rw [passed_orElse, passed_orElse]
    have hdecided : ∀ decision ≠ .passed, ∀ tail, pure decision.outcome =
        Decision.outcome <$> Decision.orElse (Decision.orElse (pure decision) tail) rest := by
      intro decision hdecision tail
      rw [decided_orElse hdecision, decided_orElse hdecision, map_pure]
    rw [if_neg (List.cons_ne_nil _ _), hdata, bind_map_left, search, Candidate.answer, if_pos rfl,
      Decision.orElse, bind_assoc, map_bind]
    apply bind_congr
    intro answer
    match answer with
    | .error .skipHandler => exact hpassed _ (search_refused (.inr rfl) filters middleware handlers)
    | .error .stopPropagation => exact hdecided .stopped nofun _
    | .error (.exception e) =>
      exact hdecided (.raised (.exception (e.attach "filter" none))) nofun _
    | .error (.baseException cls) => exact hdecided (.raised (.baseException cls)) nofun _
    | .ok none => exact hpassed _ (search_refused (.inl rfl) filters middleware handlers)
    | .ok (some added) =>
      refine (routeHandlers_bind filters middleware added (handler :: handlers) rest).trans ?_
      rw [List.map_cons, search, Candidate.answer, if_neg Bool.false_ne_true, pure_bind]
      rfl

/-- One pass is the search of its candidates. -/
theorem search_pass (carried : Except Raised (Option (Context V))) (name : ObserverName)
    (routers : List (Router m Ev V × List (Middleware m Ev V))) :
    routeWalk hooks event data name routers =
      Decision.outcome <$> search hooks event data carried (passCandidates name routers) := by
  induction routers generalizing carried with
  | nil =>
    rw [passCandidates, List.flatMap_nil, search, map_pure]
    rfl
  | cons entry routers ih =>
    obtain ⟨router, middleware⟩ := entry
    rw [passCandidates, List.flatMap_cons, ← passCandidates,
      search_append (opens_passCandidates name routers)]
    exact routeWalk_cons name router middleware routers carried (ih (.ok none))

end Pass

/-! ## Assigned outcomes -/

section Assigned

/-- The filter's outcomes are an assignment: its answer to an event and a context is fixed. -/
def Filter.Assigned (filter_ : Filter m Ev V) : Prop :=
  ∀ event data, ∃ outcome, filter_.call event data = pure outcome

/-- The common filters of every observer of the tree have assigned outcomes. -/
def Router.Assigned (root : Router m Ev V) : Prop :=
  ∀ entry ∈ root.preorder, ∀ name, ∀ filter_ ∈ (entry.1.observer name).filters, filter_.Assigned

/-- Where callables have no effect at all, every filter is assigned its outcomes. -/
theorem assigned_of_id (root : Router Id Ev V) : root.Assigned :=
  fun _ _ _ filter_ _ event data => ⟨filter_.call event data, rfl⟩

theorem additions_assigned [LawfulMonad m] (event : Ev) (data : Context V)
    {filters : List (Filter m Ev V)} (h : ∀ f ∈ filters, f.Assigned) (added : Context V) :
    ∃ answer, additions event data filters added = pure answer := by
  induction filters generalizing added with
  | nil => exact ⟨.ok (some added), rfl⟩
  | cons filter_ filters ih =>
    obtain ⟨hfilter, hfilters⟩ := List.forall_mem_cons.mp h
    obtain ⟨outcome, hcall⟩ := hfilter event (data ++ added)
    rw [additions, hcall, pure_bind]
    match outcome with
    | .error raised => exact ⟨_, rfl⟩
    | .ok (.bool true) => exact ih hfilters added
    | .ok (.bool false) => exact ⟨_, rfl⟩
    | .ok (.other typeName) => exact ⟨_, rfl⟩
    | .ok (.mapping items) =>
      simp only
      cases mergeItems filter_ items (data ++ added) with
      | error e => exact ⟨_, rfl⟩
      | ok merged => exact ih hfilters (added ++ entries items)

/-- Up to the next opening candidate the candidates of the list stand under `filters`. -/
def Follows : List (Filter m Ev V) → List (Candidate m Ev V) → Prop
  | _, [] => True
  | filters, c :: rest => (c.opening = false → c.filters = filters) ∧ Follows c.filters rest

omit [Monad m] in
theorem Follows.append {filters : List (Filter m Ev V)} {l rest : List (Candidate m Ev V)}
    (hl : Follows filters l) (hrest : ∀ filters, Follows filters rest) :
    Follows filters (l ++ rest) := by
  induction l generalizing filters with
  | nil => exact hrest filters
  | cons c l ih => exact ⟨hl.1, ih hl.2⟩

omit [Monad m] in
theorem Follows.flatMap {α : Type} {f : α → List (Candidate m Ev V)}
    (hf : ∀ a filters, Follows filters (f a)) (l : List α) (filters : List (Filter m Ev V)) :
    Follows filters (l.flatMap f) := by
  induction l generalizing filters with
  | nil => exact trivial
  | cons a l ih => exact (hf a filters).append ih

omit [Monad m] in
theorem follows_candidates (observer : EventObserver m Ev V) (middleware : List (Middleware m Ev V))
    (filters : List (Filter m Ev V)) : Follows filters (observer.candidates middleware) := by
  obtain ⟨own, handlers⟩ := observer
  cases handlers with
  | nil => exact trivial
  | cons opening handlers =>
    refine ⟨nofun, ?_⟩
    show Follows own _
    induction handlers with
    | nil => exact trivial
    | cons handler handlers ih => exact ⟨fun _ => rfl, ih⟩

omit [Monad m] in
theorem follows_names (routers : List (Router m Ev V × List (Middleware m Ev V)))
    (names : List ObserverName) (filters : List (Filter m Ev V)) :
    Follows filters (names.flatMap fun name => passCandidates name routers) := by
  apply Follows.flatMap
  intro name
  apply Follows.flatMap
  intro entry
  exact follows_candidates (entry.1.observer name) entry.2

omit [Monad m] in
theorem filters_of_mem_candidates {observer : EventObserver m Ev V}
    {middleware : List (Middleware m Ev V)} {c : Candidate m Ev V}
    (h : c ∈ observer.candidates middleware) : c.filters = observer.filters := by
  obtain ⟨own, handlers⟩ := observer
  cases handlers with
  | nil => cases h
  | cons opening handlers =>
    obtain rfl | hrest := List.mem_cons.mp h
    · rfl
    · obtain ⟨handler, -, rfl⟩ := List.mem_map.mp hrest
      rfl

/-- When the common filters have assigned outcomes it does not matter how often they run. -/
theorem search_eq_firstMatch [LawfulMonad m] {hooks : HandlerHooks m Ev V} {event : Ev}
    {data : Context V} {filters : List (Filter m Ev V)} {l : List (Candidate m Ev V)}
    {carried : Except Raised (Option (Context V))} (hl : Follows filters l)
    (hassigned : ∀ c ∈ l, ∀ f ∈ c.filters, f.Assigned)
    (hcarried : additions event data filters [] = pure carried) :
    search hooks event data carried l = firstMatch hooks event data l := by
  induction l generalizing filters carried with
  | nil => rfl
  | cons c rest ih =>
    obtain ⟨hc, hrest⟩ := List.forall_mem_cons.mp hassigned
    obtain ⟨answer, hanswer⟩ := additions_assigned event data hc []
    have hcommon : c.answer event data carried = pure answer := by
      unfold Candidate.answer
      split
      · exact hanswer
      · next hopening =>
        rw [← hcarried, ← hl.1 (eq_false_of_ne_true hopening), hanswer]
    rw [search, firstMatch, hcommon, hanswer, pure_bind, pure_bind, ih hl.2 hrest hanswer]

end Assigned

/-! ## Routing an event -/

namespace Dispatcher

/-- The outcome of the search: an event that no candidate decides about is reported. -/
def conclude (d : Dispatcher m V) (event : Routed) : Decision V → Except Raised (DispatchOutcome V)
  | .passed =>
    match d.logUnmatched event with
    | .error e => .error (.exception e)
    | .ok () => .ok {}
  | .stopped => .ok { handled := false, stopped := true, result := none }
  | .handled result => .ok { handled := true, stopped := false, result := some result }
  | .raised raised => .error raised

variable [LawfulMonad m]

theorem routeNames_eq (d : Dispatcher m V) (event : Routed) (data : Context V)
    (names : List ObserverName) (carried : Except Raised (Option (Context V))) :
    d.routeNames event data names =
      Decision.found <$> search d.hooks event data carried
        (names.flatMap fun name => passCandidates name d.router.placed) := by
  induction names generalizing carried with
  | nil =>
    rw [List.flatMap_nil, search, map_pure]
    rfl
  | cons name names ih =>
    rw [List.flatMap_cons, search_append (opens_names d.router.placed names), found_orElse,
      routeNames, routePass, d.router.walk_eq_placed, search_pass carried, bind_map_left]
    apply bind_congr
    intro decision
    cases decision with
    | passed => exact ih (.ok none)
    | stopped => rfl
    | handled result => rfl
    | raised raised => rfl

/-- `_route_event` is the search of the flat list, the filters of an observer running once. -/
theorem routeEvent_eq_search (d : Dispatcher m V) (event : Routed) (data : Context V) :
    d.routeEvent event data =
      d.conclude event <$> search d.hooks event data (.ok none) (candidates d.router event) := by
  have hlast : Opens ((if event.isErrorEvent then [] else [ObserverName.event]).flatMap fun name =>
      passCandidates name d.router.placed) := opens_names d.router.placed _
  rw [candidates, observerNames, List.flatMap_append, search_append hlast, routeEvent,
    routeNames_eq _ _ _ _ (.ok none), bind_map_left, Decision.orElse, map_bind]
  apply bind_congr
  intro decision
  cases decision with
  | passed =>
    by_cases herror : event.isErrorEvent = true
    · simp only [if_pos herror, List.flatMap_nil, search, map_pure]
      cases event with
      | event event => cases herror
      | error sourceEvent e => rfl
      | other eventType => cases herror
    · simp only [if_neg herror, List.flatMap_cons, List.flatMap_nil, List.append_nil, Decision.found,
        routePass, d.router.walk_eq_placed, search_pass (.ok none), bind_map_left]
      rw [map_eq_pure_bind]
      apply bind_congr
      intro decision
      cases decision <;> rfl
  | stopped =>
    simp only [map_pure]
    rfl
  | handled result =>
    simp only [map_pure]
    rfl
  | raised raised =>
    simp only [map_pure]
    rfl

/-- **Main result.** `_route_event` is the search of the flat list for the first candidate that
decides: in every monad when the filters of an observer run once, for its first candidate, and,
whatever handlers, middleware and own filters do, with every candidate judged by itself when the
outcomes of the common filters are assigned. -/
theorem routeEvent_first_match (d : Dispatcher m V) (event : Routed) (data : Context V) :
    d.routeEvent event data =
        d.conclude event <$> search d.hooks event data (.ok none) (candidates d.router event) ∧
      (d.router.Assigned → d.routeEvent event data =
        d.conclude event <$> firstMatch d.hooks event data (candidates d.router event)) := by
  refine ⟨d.routeEvent_eq_search event data, fun hassigned => ?_⟩
  have hopens : Opens (candidates d.router event) :=
    opens_names d.router.placed (observerNames event)
  have hfollows : Follows [] (candidates d.router event) :=
    follows_names d.router.placed (observerNames event) []
  have hcommon : ∀ c ∈ candidates d.router event, ∀ f ∈ c.filters, f.Assigned := by
    intro c hc
    obtain ⟨name, -, hpass⟩ := List.mem_flatMap.mp hc
    obtain ⟨placed, hplaced, hobserver⟩ := List.mem_flatMap.mp hpass
    obtain ⟨entry, hentry, rfl⟩ := List.mem_map.mp hplaced
    rw [filters_of_mem_candidates hobserver]
    exact hassigned entry hentry name
  rw [routeEvent_eq_search, search_opens hopens _ (.ok (some [])),
    search_eq_firstMatch hfollows hcommon rfl]

section Example

/-- A filter adds `member` for the two handlers of one observer. The first of them gets `draft` from
its own filter and skips; the second one counts the entries it sees. -/
def draftSkips : Dispatcher Id Nat where
  router := .mk "dispatcher"
    (fun
      | .message =>
        { filters := [⟨"member", fun _ _ => .ok (.mapping [(.str "member", 1)])⟩]
          handlers := [
            { qualifiedName := "app.draft"
              filters := [⟨"draft", fun _ _ => .ok (.mapping [(.str "draft", 2)])⟩]
              plan := fun _ _ => .error .skipHandler },
            { qualifiedName := "app.entries"
              filters := []
              plan := fun _ data => .ok data.length }] }
      | _ => ⟨[], []⟩) [] []
  hooks := ⟨none, none⟩
  strictInteractions := true

def greeting : Routed :=
  .event ⟨.null, none, none, none, none, none, none, none, .message "hi" none none none none⟩

theorem second_handler_matches :
    draftSkips.routeEvent greeting [("bot", 0)] =
        draftSkips.conclude greeting
          (search draftSkips.hooks greeting [("bot", 0)] (.ok none)
            (candidates draftSkips.router greeting)).run ∧
      draftSkips.routeEvent greeting [("bot", 0)] =
        draftSkips.conclude greeting
          (firstMatch draftSkips.hooks greeting [("bot", 0)]
            (candidates draftSkips.router greeting)).run ∧
      draftSkips.routeEvent greeting [("bot", 0)] = .ok { handled := true, result := some 2 } := by
  obtain ⟨hsearch, hmatch⟩ := routeEvent_first_match draftSkips greeting [("bot", 0)]
  exact ⟨hsearch, hmatch (assigned_of_id draftSkips.router), rfl⟩

end Example

end Dispatcher

end Chattice.Routing
